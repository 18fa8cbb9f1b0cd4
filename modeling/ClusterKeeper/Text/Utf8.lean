/-
# UTF-8

Bytes as characters. A sequence of bytes that breaks off, or cannot begin a character, counts
as one replacement character, so that every text has some characters.
-/

namespace ClusterKeeper.Text

/-- A character of which some bytes are outstanding; the next one is within bounds. -/
structure PartialChar where
  left : Nat
  least : Nat := 0x80
  most : Nat := 0xBF
  value : Nat
  deriving DecidableEq, Repr

/-- What the first byte of a character says. -/
inductive Lead where
  | whole (c : Char)
  | more (p : PartialChar)
  | wrong
  deriving DecidableEq, Repr

/-- The meaning of a first byte. -/
def lead (b : Nat) : Lead :=
  if b < 0x80 then .whole (Char.ofNat b)
  else if b < 0xC2 then .wrong
  else if b < 0xE0 then .more { left := 1, value := b - 0xC0 }
  else if b = 0xE0 then .more { left := 2, least := 0xA0, value := 0 }
  else if b = 0xED then .more { left := 2, most := 0x9F, value := 0xD }
  else if b < 0xF0 then .more { left := 2, value := b - 0xE0 }
  else if b = 0xF0 then .more { left := 3, least := 0x90, value := 0 }
  else if b < 0xF4 then .more { left := 3, value := b - 0xF0 }
  else if b = 0xF4 then .more { left := 3, most := 0x8F, value := 4 }
  else .wrong

/-- What a further byte says. -/
def PartialChar.next (p : PartialChar) (b : Nat) : Lead :=
  if p.least ≤ b ∧ b ≤ p.most then
    let value := p.value * 0x40 + b % 0x40
    if p.left ≤ 1 then .whole (Char.ofNat value) else .more { left := p.left - 1, value }
  else .wrong

/-- The character that stands for bytes that are none. -/
def replacement : Char := '\uFFFD'

/-- The characters of bytes, behind the beginning of a character or none. -/
def decode : Option PartialChar → List UInt8 → List Char
  | none, [] => []
  | some _, [] => [replacement]
  | none, b :: bs =>
    match lead b.toNat with
    | .whole c => c :: decode none bs
    | .more p => decode (some p) bs
    | .wrong => replacement :: decode none bs
  | some p, b :: bs =>
    match p.next b.toNat with
    | .whole c => c :: decode none bs
    | .more p => decode (some p) bs
    | .wrong =>
      replacement :: match lead b.toNat with
        | .whole c => c :: decode none bs
        | .more p => decode (some p) bs
        | .wrong => replacement :: decode none bs

end ClusterKeeper.Text
