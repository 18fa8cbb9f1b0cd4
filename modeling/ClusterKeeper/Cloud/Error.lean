/-
# Errors of the cloud

What a call to the cloud may fail with. An error is of one of three kinds: the resource is
not there, the call may succeed later, or there is no point in trying again. The API's own
messages are sorted into these by the words they hold.
-/

import ClusterKeeper.Cluster.Validity

namespace ClusterKeeper

/-- What can be done about an error. -/
inductive ErrorKind where
  | notFound
  | retryable
  | fatal
  deriving DecidableEq, Repr

/-- The name of a kind of errors, for programs. -/
def ErrorKind.code : ErrorKind → String
  | .notFound => "NotFound"
  | .retryable => "Retryable"
  | .fatal => "Fatal"

/-- What a call to the cloud fails with. -/
inductive CloudError where
  | providerNotFound (cloud : String)
  | resourceNotFound (what : String)
  | resourceAlreadyExists (what : String)
  | authenticationFailed (reason : String)
  | transient (reason : String)
  | api (reason : String)
  | invalidConfig (reason : String)
  | timeout (reason : String)
  | io (reason : String)
  | cluster (error : ClusterError)
  /-- An error from within, with the chain of its causes. -/
  | internal (message : String) (causes : List String)
  deriving DecidableEq, Repr

namespace CloudError

instance : Inhabited CloudError := ⟨.api ""⟩

/-- Words by which the API says that a call may succeed later. -/
def retryableWords : List String :=
  ["DependencyViolation", "does not exist in default VPC", "DeleteConflict",
    "must remove roles from instance profile first", "resourceInUseByAnotherResource",
    "RequestLimitExceeded"]

/-- Words by which the API says that something is not there. -/
def notFoundWords : List String := ["NotFound", "NoSuchEntity", "notFound"]

/-- Whether a word stands somewhere in a list of characters. -/
def standsIn (word : List Char) : List Char → Bool
  | [] => word.isEmpty
  | c :: cs => word.isPrefixOf (c :: cs) || standsIn word cs

/-- Whether a text holds a word. -/
def holds (text word : String) : Bool := standsIn word.toList text.toList

/-- The error that a message of the API stands for. That a call may succeed later takes
precedence over that something is not there. -/
def ofApiMessage (message : String) : CloudError :=
  if retryableWords.any (holds message) then .transient message
  else if notFoundWords.any (holds message) then .resourceNotFound message
  else .api message

/-- The kind of an error. -/
def kind : CloudError → ErrorKind
  | .resourceNotFound _ => .notFound
  | .transient _ => .retryable
  | .timeout _ => .retryable
  | _ => .fatal

/-- Whether the call may succeed later. -/
def isRetryable (e : CloudError) : Bool := e.kind == .retryable

/-- Whether the resource is not there. -/
def isNotFound (e : CloudError) : Bool := e.kind == .notFound

/-- The name of an error, for programs. -/
def code : CloudError → String
  | .providerNotFound _ => "ProviderNotFound"
  | .resourceNotFound _ => "ResourceNotFound"
  | .resourceAlreadyExists _ => "ResourceAlreadyExists"
  | .authenticationFailed _ => "AuthenticationFailed"
  | .transient _ => "Transient"
  | .api _ => "ApiError"
  | .invalidConfig _ => "InvalidConfig"
  | .timeout _ => "Timeout"
  | .io _ => "Io"
  | .cluster _ => "Cluster"
  | .internal _ _ => "Internal"

/-- The message of an error. -/
def message : CloudError → String
  | .providerNotFound s => "Provider not found: " ++ s
  | .resourceNotFound s => "Resource not found: " ++ s
  | .resourceAlreadyExists s => "Resource already exists: " ++ s
  | .authenticationFailed s => "Authentication failed: " ++ s
  | .transient s => "Transient API error: " ++ s
  | .api s => "API error: " ++ s
  | .invalidConfig s => "Invalid configuration: " ++ s
  | .timeout s => "Timeout: " ++ s
  | .io s => "IO error: " ++ s
  | .cluster e => "Cluster error: " ++ e.message
  | .internal s _ => s

/-- The messages of what the error came from, the nearest first. -/
def sources : CloudError → List String
  | .io s => [s]
  | .cluster e => [e.message]
  | .internal _ causes => causes
  | _ => []

end CloudError

end ClusterKeeper
