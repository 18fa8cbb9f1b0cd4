/-
# Arguments

What the words of a command line ask for. The directory of the state may be named before the
command as well as behind it, and then the latter counts; a variable names it where the
words do not.
-/

import ClusterKeeper.Settings.File

namespace ClusterKeeper.Cli

/-- What can be asked for. -/
inductive Command where
  | list
  | get (name : String)
  | validate (name : String)
  | delete (name : String) (confirmed : Bool)
  | version
  deriving DecidableEq, Repr

/-- A command with the directory it is for, if one is named. -/
structure Invocation where
  stateDir : Option String
  command : Command
  deriving DecidableEq, Repr

/-- Why a command line asks for nothing that can be done. -/
inductive Refusal where
  | help
  | misuse
  deriving DecidableEq, Repr

/-- The words of a command that have been read. -/
structure Words where
  stateDir : Option String := none
  name : Option String := none
  confirmed : Bool := false
  deriving DecidableEq, Repr

/-- What a command takes besides the directory. -/
structure Form where
  takesName : Bool
  takesConfirmation : Bool
  deriving DecidableEq, Repr

/-- The option that names the directory. -/
def stateDirOption : String := "--state-dir"

/-- The variable that names the directory. -/
def stateDirVariable : String := "CLUSTERFLOW_STATE_DIR"

/-- Whether a word is an option rather than a value. A dash alone is a value. -/
def isOption (word : String) : Bool := word.startsWith "-" && word != "-"

/-- What stands behind a text in a word that begins with it. -/
def behind? (start word : String) : Option String :=
  if start.toList.isPrefixOf word.toList then
    some (String.ofList (word.toList.drop start.length))
  else none

namespace Words

/-- Names the directory, once, and by a name that is not empty. -/
def setStateDir (w : Words) (value : String) : Except Refusal Words :=
  if value.isEmpty || w.stateDir.isSome then .error .misuse
  else .ok { w with stateDir := some value }

/-- Adds a value, which can only be the name. -/
def addValue (form : Form) (w : Words) (value : String) : Except Refusal Words :=
  if form.takesName && w.name.isNone then .ok { w with name := some value } else .error .misuse

/-- Confirms the command, once. -/
def confirm (form : Form) (w : Words) : Except Refusal Words :=
  if form.takesConfirmation && !w.confirmed then .ok { w with confirmed := true }
  else .error .misuse

/-- Reads options of one letter each that share a dash. -/
def addLetters (form : Form) (w : Words) : List Char → Except Refusal Words
  | [] => .ok w
  | c :: cs => do
    if c = 'h' then throw .help
    if c ≠ 'y' then throw .misuse
    addLetters form (← w.confirm form) cs

/-- Reads an option that needs no further word. -/
def addOption (form : Form) (w : Words) (word : String) : Except Refusal Words :=
  match behind? (stateDirOption ++ "=") word with
  | some value => w.setStateDir value
  | none =>
    if word = "--help" then .error .help
    else if word = "--yes" then w.confirm form
    else if word.startsWith "--" then .error .misuse
    else w.addLetters form word.toList.tail

/-- Reads the words behind a command. All words behind two dashes are values. -/
def read (form : Form) (w : Words) : List String → Except Refusal Words
  | [] => .ok w
  | "--" :: values => values.foldlM (addValue form) w
  | word :: rest => do
    if word = stateDirOption then
      match rest with
      | [] => throw .misuse
      | value :: rest =>
        if isOption value then throw .misuse
        read form (← w.setStateDir value) rest
    else if isOption word then read form (← w.addOption form word) rest
    else read form (← w.addValue form word) rest

end Words

/-- The commands by their names, with what each takes and how it is made of its words. -/
def commands : List (String × Form × (Words → Option Command)) := [
  ("list", ⟨false, false⟩, fun _ => some .list),
  ("get", ⟨true, false⟩, fun w => w.name.map .get),
  ("validate", ⟨true, false⟩, fun w => w.name.map .validate),
  ("delete", ⟨true, true⟩, fun w => w.name.map fun name => .delete name w.confirmed),
  ("version", ⟨false, false⟩, fun _ => some .version)]

/-- Whether the words behind the command for help name a command or nothing. -/
def asksForHelp : List String → Bool
  | [] => true
  | [name] => name == "help" || (commands.lookup name).isSome
  | _ => false

/-- Reads a command with its words. A variable that names the directory must not be empty
unless it is named in both places where words can name it. -/
def readCommand (preset : Option String) (before : Words) (word : String)
    (rest : List String) : Except Refusal Invocation := do
  if word = "help" then throw (if asksForHelp rest then .help else .misuse)
  match commands.lookup word with
  | none => throw .misuse
  | some (form, make) =>
    let words ← Words.read form {} rest
    let named := before.stateDir.isSome && words.stateDir.isSome
    if preset = some "" ∧ named = false then throw .misuse
    match make words with
    | none => throw .misuse
    | some command =>
      return { stateDir := (words.stateDir.or before.stateDir).or preset, command }

/-- Reads the words in front of a command. -/
def readFrom (preset : Option String) (w : Words) : List String → Except Refusal Invocation
  | [] => .error .misuse
  | word :: rest => do
    if word = stateDirOption then
      match rest with
      | [] => throw .misuse
      | value :: rest =>
        if isOption value then throw .misuse
        readFrom preset (← w.setStateDir value) rest
    else if word = "--" then throw .misuse
    else if isOption word then readFrom preset (← w.addOption ⟨false, false⟩ word) rest
    else readCommand preset w word rest

/-- What a command line asks for. -/
def parse (s : Surroundings) (words : List String) : Except Refusal Invocation :=
  readFrom (s.valueOf? stateDirVariable) {} words

end ClusterKeeper.Cli
