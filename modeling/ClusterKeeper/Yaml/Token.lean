/-
# Tokens

What a text consists of once its layout is resolved: where blocks begin and end is said by
tokens of their own.
-/

namespace ClusterKeeper.Yaml

/-- How a scalar is written. -/
inductive ScalarStyle where
  | plain
  | quoted
  | literal
  | folded
  deriving DecidableEq, Repr

/-- A tag as written: the suffix is taken within the space that the handle stands for. -/
structure TagName where
  handle : String
  suffix : List UInt8
  deriving DecidableEq, Repr

/-- A token. -/
inductive Token where
  | version (major minor : Nat)
  | tagSpace (handle : String) (space : List UInt8)
  | documentStart
  | documentEnd
  | blockSequence
  | blockMapping
  | blockEnd
  | openSequence
  | closeSequence
  | openMapping
  | closeMapping
  | blockItem
  | flowItem
  | key
  | value
  | alias (name : String)
  | anchor (name : String)
  | tag (name : TagName)
  | scalar (style : ScalarStyle) (text : String)
  deriving DecidableEq, Repr

end ClusterKeeper.Yaml
