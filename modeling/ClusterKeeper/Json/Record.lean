/-
# Records

A record is written as an object with its members in order. It is read from an object,
whose members may stand in any order, unknown ones skipped, or from an array of its
members in order. A member that may be left out has a value that is taken in its place.
-/

import ClusterKeeper.Json.Codec

namespace ClusterKeeper.Json

/-- Whether a member may be left out, and the value it then has. -/
inductive Omission (α : Type) where
  | never
  /-- It may be missing in an object, but an array has to hold it. -/
  | inObjects (value : α)
  | anywhere (value : α)

/-- The members of a record, in order, and the product of their types. -/
inductive Members : Type → Type 1 where
  | nil : Members Unit
  | cons {α β : Type} (name : String) (codec : Codec α) (omission : Omission α)
      (rest : Members β) : Members (α × β)

/-- What to do with a member of an object that is being read. -/
inductive Slot (δ : Type) where
  /-- The record has no member of that name. -/
  | unknown
  /-- There was a member of that name before. -/
  | filled
  | vacant (read : Reader δ)

namespace Members

/-- The members that have been read so far. -/
def Draft : {β : Type} → Members β → Type
  | _, .nil => Unit
  | _, @cons α _ _ _ _ rest => Option α × rest.Draft

/-- No member has been read. -/
def blank : {β : Type} → (m : Members β) → m.Draft
  | _, .nil => ()
  | _, .cons _ _ _ rest => (none, rest.blank)

/-- Where a member of a name goes. -/
def slot (key : String) : {β : Type} → (m : Members β) → m.Draft → Slot m.Draft
  | _, .nil, _ => .unknown
  | _, @cons α _ name codec _ rest, draft =>
    let (x, xs) : Option α × rest.Draft := draft
    if key = name then
      match x with
      | some _ => .filled
      | none => .vacant fun cs => (codec.read cs).map fun (y, cs) => ((some y, xs), cs)
    else
      match rest.slot key xs with
      | .unknown => .unknown
      | .filled => .filled
      -- The member is further on, and reading it leaves the first one as it is.
      | .vacant read => .vacant fun cs => (read cs).map fun (ys, cs) => ((x, ys), cs)

/-- All members, those that were left out at their omission values. -/
def complete : {β : Type} → (m : Members β) → m.Draft → Except Misfit β
  | _, .nil, _ => .ok ()
  | _, @cons α _ name _ omission rest, draft => do
    let (x, xs) : Option α × rest.Draft := draft
    let x ← match x, omission with
      | some x, _ => pure x
      | none, .inObjects x => pure x
      | none, .anywhere x => pure x
      | none, .never => .error (.missingField name)
    return (x, ← rest.complete xs)

/-- The number of members. -/
def size : {β : Type} → Members β → Nat
  | _, .nil => 0
  | _, .cons _ _ _ rest => rest.size + 1

/-- The members of an object from its next one on. -/
def readObject {β : Type} (m : Members β) : (fuel : Nat) → (first : Bool) → m.Draft → Reader β
  | 0, _, _, _ => .error .truncated
  | fuel + 1, first, draft, cs => do
    match ← nextName first cs with
    -- The first member that is missing, in the order of the record, is the one that is reported.
    | .closed rest => return (← (m.complete draft).mapError .misfit, rest)
    | .more rest =>
      let (key, rest) ← stringBody [] .plain rest
      match m.slot key draft with
      | .filled => .error (.misfit (.duplicateField key))
      | .vacant read =>
        let (draft, rest) ← read (← readColon rest)
        readObject m fuel false draft rest
      | .unknown =>
        let rest ← skipValue (← readColon rest)
        readObject m fuel false draft rest

/-- The members in order from an array that holds all of them, or leaves out some at its
end. The second part of the result tells whether the array is closed. -/
def readArray (record : String) (total : Nat) :
    {β : Type} → (m : Members β) → (closed : Bool) → List Char →
      Except Failure (β × Bool × List Char)
  | _, .nil, closed, cs => .ok ((), closed, cs)
  | _, .cons _ codec omission rest, closed, cs => do
    let position := total - (rest.size + 1)
    -- Once the array is closed every further member is left out.
    let (x, closed, cs) ←
      match ← (if closed then .ok (.closed cs) else nextItem (position == 0) cs) with
      | .closed cs =>
        match omission with
        | .anywhere x => pure (x, true, cs)
        | _ => .error (.misfit (.wrongLength position record total))
      | .more cs =>
        let (x, cs) ← codec.read cs
        pure (x, false, cs)
    let (xs, closed, cs) ← readArray record total rest closed cs
    return ((x, xs), closed, cs)

/-- The rest behind the closing of an array, if it is not closed yet. -/
def closeArray (closed : Bool) (cs : List Char) : Except Failure (List Char) :=
  if closed then .ok cs
  else
    match skipBlanks cs with
    | [] => .error .truncated
    | c :: cs => if c = ']' then .ok cs else .error .malformed

/-- The members as they are written. -/
def trees : {β : Type} → Members β → β → List (String × Tree)
  | _, .nil, _ => []
  | _, .cons name codec _ rest, (x, xs) => (name, codec.tree x) :: rest.trees xs

end Members

/-- A record of the given name and members. -/
def Codec.record {α β : Type} (name : String) (members : Members β) (ofMembers : β → α)
    (toMembers : α → β) : Codec α where
  read := fun cs => do
    match skipBlanks cs with
    | '[' :: cs =>
      let (x, closed, cs) ← members.readArray name members.size false cs
      return (ofMembers x, ← Members.closeArray closed cs)
    | '{' :: cs =>
      let (x, cs) ← members.readObject (cs.length + 1) true members.blank cs
      return (ofMembers x, cs)
    | cs => .error (Codec.mismatch ("struct " ++ name) cs)
  tree x := .object (members.trees (toMembers x))

end ClusterKeeper.Json
