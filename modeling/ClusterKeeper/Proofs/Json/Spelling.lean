/-
# Spellings of documents

The texts of a tree with any blanks between their parts. The compact and the pretty text of a
tree are two of them, so what is read from all spellings is read from both. Here are also the
parts of a reader that are the same for all documents: blanks, strings, whole numbers, and the
steps to the next item and the next member.
-/

import ClusterKeeper.Json.Reader
import ClusterKeeper.Json.Text

namespace ClusterKeeper.Json

variable {first : Bool} {cs gap rest : List Char} {c : Char}

/-! ## Texts -/

/-- Nothing but blanks. -/
def Blanks (cs : List Char) : Prop := ∀ c ∈ cs, isBlank c = true

/-- What stands in front of an item or a member: blanks, and a comma among them unless it is the
first one. -/
inductive Lead : Bool → List Char → Prop
  | first {gap : List Char} (h : Blanks gap) : Lead true gap
  | next {gap gap' : List Char} (h : Blanks gap) (h' : Blanks gap') :
      Lead false (gap ++ ',' :: gap')

mutual

/-- A text of a tree. -/
inductive Spells : Tree → List Char → Prop
  | null : Spells .null ['n', 'u', 'l', 'l']
  | true : Spells (.bool true) ['t', 'r', 'u', 'e']
  | false : Spells (.bool false) ['f', 'a', 'l', 's', 'e']
  | number (n : Number) : Spells (.number n) n.text
  | string (s : String) : Spells (.string s) (quote s)
  | array {ts : List Tree} {cs : List Char} (h : SpellsItems true ts cs) :
      Spells (.array ts) ('[' :: cs)
  | object {ms : List (String × Tree)} {cs : List Char} (h : SpellsMembers true ms cs) :
      Spells (.object ms) ('{' :: cs)

/-- A text of the items of an array from one of them on, with the closing of the array. -/
inductive SpellsItems : Bool → List Tree → List Char → Prop
  | nil {first : Bool} {gap : List Char} (h : Blanks gap) :
      SpellsItems first [] (gap ++ [']'])
  | cons {first : Bool} {lead cs rest : List Char} {t : Tree} {ts : List Tree}
      (hl : Lead first lead) (ht : Spells t cs) (hts : SpellsItems false ts rest) :
      SpellsItems first (t :: ts) (lead ++ (cs ++ rest))

/-- A text of the members of an object from one of them on, with the closing of the object. -/
inductive SpellsMembers : Bool → List (String × Tree) → List Char → Prop
  | nil {first : Bool} {gap : List Char} (h : Blanks gap) :
      SpellsMembers first [] (gap ++ ['}'])
  | cons {first : Bool} {lead gap gap' cs rest : List Char} {k : String} {t : Tree}
      {ms : List (String × Tree)} (hl : Lead first lead) (hg : Blanks gap) (hg' : Blanks gap')
      (ht : Spells t cs) (hms : SpellsMembers false ms rest) :
      SpellsMembers first ((k, t) :: ms)
        (lead ++ (quote k ++ (gap ++ ':' :: (gap' ++ (cs ++ rest)))))

end

/-- The text does not begin with anything that a numeral could go on with. -/
def Delimited (cs : List Char) : Prop :=
  ∀ c ∈ cs.head?, c.isDigit = false ∧ c ≠ '.' ∧ c ≠ 'e' ∧ c ≠ 'E'

/-- The text begins with a character that is not a blank and does not close an array. -/
def Solid (cs : List Char) : Prop := ∃ c rest, cs = c :: rest ∧ isBlank c = false ∧ c ≠ ']'

/-! ## Blanks -/

theorem blanks_nil : Blanks [] := List.forall_mem_nil _

theorem blanks_blank : Blanks [' '] := List.forall_mem_singleton.2 rfl

theorem skipBlanks_append (h : Blanks gap) : skipBlanks (gap ++ cs) = skipBlanks cs :=
  List.dropWhile_append_of_pos h

theorem skipBlanks_cons (h : isBlank c = false) : skipBlanks (c :: cs) = c :: cs :=
  List.dropWhile_cons_of_neg (Bool.eq_false_iff.1 h)

theorem skipBlanks_append_cons (hg : Blanks gap) (h : isBlank c = false) :
    skipBlanks (gap ++ c :: cs) = c :: cs :=
  (skipBlanks_append hg).trans (skipBlanks_cons h)

theorem Solid.append (h : Solid cs) : Solid (cs ++ rest) := by
  obtain ⟨c, tail, rfl, hc, hne⟩ := h
  exact ⟨c, tail ++ rest, rfl, hc, hne⟩

theorem delimited_nil : Delimited [] := by rintro c ⟨⟩

/-- Blanks, and then a character that is part of no numeral. -/
theorem delimited_append_cons (hg : Blanks gap)
    (hc : c.isDigit = false ∧ c ≠ '.' ∧ c ≠ 'e' ∧ c ≠ 'E') : Delimited (gap ++ c :: cs) := by
  intro d hd
  cases gap with
  | nil =>
    cases hd
    exact hc
  | cons g gap =>
    cases hd
    have hblank := hg d List.mem_cons_self
    simp only [isBlank, Bool.or_eq_true, beq_iff_eq] at hblank
    rcases hblank with ((rfl | rfl) | rfl) | rfl <;> decide

theorem Lead.delimited {lead : List Char} (h : Lead false lead) : Delimited (lead ++ cs) := by
  cases h with
  | next hg hg' =>
    rw [List.append_assoc]
    exact delimited_append_cons hg (by decide)

theorem SpellsItems.delimited {ts : List Tree} (h : SpellsItems false ts cs)
    (rest : List Char) : Delimited (cs ++ rest) := by
  cases h with
  | nil hg =>
    rw [List.append_assoc]
    exact delimited_append_cons hg (by decide)
  | cons hl ht hts =>
    rw [List.append_assoc]
    exact hl.delimited

theorem SpellsMembers.delimited {ms : List (String × Tree)} (h : SpellsMembers false ms cs)
    (rest : List Char) : Delimited (cs ++ rest) := by
  cases h with
  | nil hg =>
    rw [List.append_assoc]
    exact delimited_append_cons hg (by decide)
  | cons hl hg hg' ht hms =>
    rw [List.append_assoc]
    exact hl.delimited

/-! ## The two layouts -/

theorem blanks_newline (level : Nat) : Blanks (Tree.newline level) := by
  intro c hc
  rcases List.mem_cons.1 hc with rfl | hc
  · rfl
  · rw [List.eq_of_mem_replicate hc]
    rfl

mutual

/-- The pretty text is a spelling. -/
theorem spells_prettyAt (level : Nat) : (t : Tree) → Spells t (t.prettyAt level)
  | .null => .null
  | .bool true => .true
  | .bool false => .false
  | .number n => .number n
  | .string s => .string s
  | .array [] => .array (.nil blanks_nil)
  | .object [] => .object (.nil blanks_nil)
  | .array (t :: ts) => by
    rw [Tree.prettyAt, List.cons_append, List.cons_append, List.append_assoc]
    exact .array (spellsItems_prettyItems (level + 1) (blanks_newline level) (t :: ts)
      (List.cons_ne_nil _ _) [] (.first (blanks_newline _)))
  | .object (m :: ms) => by
    rw [Tree.prettyAt, List.cons_append, List.cons_append, List.append_assoc]
    exact .object (spellsMembers_prettyMembers (level + 1) (blanks_newline level) (m :: ms)
      (List.cons_ne_nil _ _) [] (.first (blanks_newline _)))

/-- The first item stands behind what comes before its line, each further one behind a comma. -/
theorem spellsItems_prettyItems (level : Nat) {gap : List Char} (hg : Blanks gap) :
    (ts : List Tree) → ts ≠ [] → ∀ {first : Bool} (pre : List Char),
      Lead first (pre ++ Tree.newline level) →
        SpellsItems first ts (pre ++ (Tree.prettyItems level ts ++ (gap ++ [']'])))
  | [t], _, _, pre, hl => by
    have h := SpellsItems.cons hl (spells_prettyAt level t) (.nil hg)
    simpa only [Tree.prettyItems, List.append_assoc] using h
  | t :: t' :: ts, _, _, pre, hl => by
    have hrest := spellsItems_prettyItems level hg (t' :: ts) (List.cons_ne_nil _ _)
      [','] (.next blanks_nil (blanks_newline level))
    have h := SpellsItems.cons hl (spells_prettyAt level t) hrest
    simpa only [Tree.prettyItems, List.append_assoc, List.cons_append, List.nil_append] using h

/-- The same of members. -/
theorem spellsMembers_prettyMembers (level : Nat) {gap : List Char} (hg : Blanks gap) :
    (ms : List (String × Tree)) → ms ≠ [] → ∀ {first : Bool} (pre : List Char),
      Lead first (pre ++ Tree.newline level) →
        SpellsMembers first ms (pre ++ (Tree.prettyMembers level ms ++ (gap ++ ['}'])))
  | [(k, t)], _, _, pre, hl => by
    have h := SpellsMembers.cons (k := k) hl blanks_nil blanks_blank
      (spells_prettyAt level t) (.nil hg)
    simpa only [Tree.prettyMembers, List.append_assoc, List.cons_append, List.nil_append] using h
  | (k, t) :: m :: ms, _, _, pre, hl => by
    have hrest := spellsMembers_prettyMembers level hg (m :: ms) (List.cons_ne_nil _ _)
      [','] (.next blanks_nil (blanks_newline level))
    have h := SpellsMembers.cons (k := k) hl blanks_nil blanks_blank
      (spells_prettyAt level t) hrest
    simpa only [Tree.prettyMembers, List.append_assoc, List.cons_append, List.nil_append] using h

end

mutual

/-- The compact text is a spelling. -/
theorem spells_compact : (t : Tree) → Spells t t.compact
  | .null => .null
  | .bool true => .true
  | .bool false => .false
  | .number n => .number n
  | .string s => .string s
  | .array [] => .array (.nil blanks_nil)
  | .object [] => .object (.nil blanks_nil)
  | .array (t :: ts) => by
    rw [Tree.compact, List.cons_append]
    exact .array (spellsItems_compactItems (t :: ts) (List.cons_ne_nil _ _) (.first blanks_nil))
  | .object (m :: ms) => by
    rw [Tree.compact, List.cons_append]
    exact .object
      (spellsMembers_compactMembers (m :: ms) (List.cons_ne_nil _ _) (.first blanks_nil))

theorem spellsItems_compactItems : (ts : List Tree) → ts ≠ [] → ∀ {first : Bool}
    {lead : List Char}, Lead first lead →
      SpellsItems first ts (lead ++ (Tree.compactItems ts ++ [']']))
  | [t], _, _, lead, hl => .cons hl (spells_compact t) (.nil blanks_nil)
  | t :: t' :: ts, _, _, lead, hl => by
    have h := SpellsItems.cons hl (spells_compact t) (spellsItems_compactItems (t' :: ts)
      (List.cons_ne_nil _ _) (.next blanks_nil blanks_nil))
    simpa only [Tree.compactItems, List.append_assoc, List.cons_append, List.nil_append] using h

theorem spellsMembers_compactMembers : (ms : List (String × Tree)) → ms ≠ [] → ∀ {first : Bool}
    {lead : List Char}, Lead first lead →
      SpellsMembers first ms (lead ++ (Tree.compactMembers ms ++ ['}']))
  | [(k, t)], _, _, lead, hl => by
    have h := SpellsMembers.cons (k := k) hl blanks_nil blanks_nil (spells_compact t)
      (.nil blanks_nil)
    simpa only [Tree.compactMembers, List.append_assoc, List.cons_append, List.nil_append] using h
  | (k, t) :: m :: ms, _, _, lead, hl => by
    have h := SpellsMembers.cons (k := k) hl blanks_nil blanks_nil (spells_compact t)
      (spellsMembers_compactMembers (m :: ms) (List.cons_ne_nil _ _)
        (.next blanks_nil blanks_nil))
    simpa only [Tree.compactMembers, List.append_assoc, List.cons_append, List.nil_append] using h

end

/-! ## Strings -/

theorem hasBytes_of_le_length {n : Nat} (h : n ≤ cs.length) : hasBytes n cs = true := by
  induction cs generalizing n with
  | nil =>
    obtain rfl := Nat.le_zero.1 h
    rfl
  | cons c cs ih =>
    cases n with
    | zero => rfl
    | succ n =>
      have hpos := c.utf8Size_pos
      have hle := Nat.le_of_succ_le_succ h
      exact ih (by omega)

theorem hexDigit?_digitChar : ∀ n < 16, hexDigit? (Nat.digitChar n) = some n := by
  decide

/-- The code of a control character, in four digits, is read as the character. -/
theorem stringBody_code (seen : List Char) (h : c.toNat < 0x20) :
    stringBody seen .plain ('\\' :: 'u' :: '0' :: '0' :: Nat.digitChar (c.toNat / 16) ::
      Nat.digitChar (c.toNat % 16) :: cs) = stringBody (c :: seen) .plain cs := by
  have hhigh := hexDigit?_digitChar (c.toNat / 16) (by omega)
  have hlow := hexDigit?_digitChar (c.toNat % 16) (by omega)
  have hbytes : hasBytes 4 ('0' :: '0' :: Nat.digitChar (c.toNat / 16) ::
      Nat.digitChar (c.toNat % 16) :: cs) = true :=
    hasBytes_of_le_length (by simp only [List.length_cons]; omega)
  have hvalue : 16 * (c.toNat / 16) + c.toNat % 16 = c.toNat := Nat.div_add_mod _ _
  have hunit : codeUnit c.toNat none = .char c := by
    rw [codeUnit, if_neg (by omega), if_neg (by omega), Char.ofNat_toNat]
  calc stringBody seen .plain ('\\' :: 'u' :: '0' :: '0' :: Nat.digitChar (c.toNat / 16) ::
        Nat.digitChar (c.toNat % 16) :: cs)
      = stringBody seen (.code 4 0 none) ('0' :: '0' :: Nat.digitChar (c.toNat / 16) ::
          Nat.digitChar (c.toNat % 16) :: cs) := if_pos hbytes
    _ = stringBody seen (.code 2 0 none) (Nat.digitChar (c.toNat / 16) ::
          Nat.digitChar (c.toNat % 16) :: cs) := rfl
    _ = stringBody seen (.code 1 (c.toNat / 16) none) (Nat.digitChar (c.toNat % 16) :: cs) := by
      rw [stringBody, hhigh]
      simp
    _ = stringBody (c :: seen) .plain cs := by
      rw [stringBody, hlow]
      simp [hvalue, hunit]

/-- A character of a string is read back from the way it is written. -/
theorem stringBody_escape (seen : List Char) (c : Char) (cs : List Char) :
    stringBody seen .plain (escape c ++ cs) = stringBody (c :: seen) .plain cs := by
  unfold escape
  split
  · rfl
  · rfl
  · rfl
  · rfl
  · rfl
  · rfl
  · rfl
  · next hquote hslash _ _ _ _ _ =>
    split
    · next hlt => exact stringBody_code seen hlt
    · next hle =>
      rw [List.singleton_append, stringBody, if_neg hquote, if_neg hslash, if_neg hle]

theorem stringBody_flatMap_escape (seen s cs : List Char) :
    stringBody seen .plain (s.flatMap escape ++ '"' :: cs) =
      .ok (String.ofList (seen.reverse ++ s), cs) := by
  induction s generalizing seen with
  | nil =>
    rw [List.append_nil]
    rfl
  | cons c s ih =>
    rw [List.flatMap_cons, List.append_assoc, stringBody_escape, ih, List.reverse_cons,
      List.append_assoc]
    rfl

/-- A string is read back behind its opening quote. -/
theorem quote_append (s : String) (cs : List Char) :
    ∃ tail, quote s ++ cs = '"' :: tail ∧ stringBody [] .plain tail = .ok (s, cs) := by
  refine ⟨s.toList.flatMap escape ++ '"' :: cs, ?_, ?_⟩
  · rw [quote, List.cons_append, List.cons_append, List.append_assoc]
    rfl
  · rw [stringBody_flatMap_escape, List.reverse_nil, List.nil_append, String.ofList_toList]

/-! ## Whole numbers -/

theorem digitsValue_toDigits (n : Nat) : Numeral.digitsValue (Nat.toDigits 10 n) = n :=
  Nat.ofDigitChars_toDigits (by decide) (by decide)

theorem isDigit_toDigits {n : Nat} (h : c ∈ Nat.toDigits 10 n) : c.isDigit = true :=
  Nat.isDigit_of_mem_toDigits (by decide) (by decide) h

/-- Only zero is written with a zero in front. -/
theorem toDigits_head {n : Nat} (h : 0 < n) : ∃ c cs, Nat.toDigits 10 n = c :: cs ∧ c ≠ '0' := by
  induction n using Nat.strongRecOn with
  | _ n ih =>
    rw [Nat.toDigits_eq_if (by decide)]
    split
    · next hlt =>
      refine ⟨_, [], rfl, ?_⟩
      have hall : ∀ m < 10, 0 < m → Nat.digitChar m ≠ '0' := by decide
      exact hall n hlt h
    · next hle =>
      obtain ⟨c, cs, hcs, hc⟩ := ih (n / 10) (by omega) (by omega)
      exact ⟨c, cs ++ [Nat.digitChar (n % 10)], by rw [hcs, List.cons_append], hc⟩

theorem scanDigits_append {d : Char} {ds : List Char} (hd : ∀ c ∈ d :: ds, c.isDigit = true)
    (hrest : ∀ c ∈ rest.head?, c.isDigit = false) :
    Numeral.scanDigits (d :: ds ++ rest) = .ok (d :: ds, rest) := by
  have htake : (d :: ds ++ rest).takeWhile Char.isDigit = d :: ds := by
    rw [List.takeWhile_append_of_pos hd]
    cases rest with
    | nil => exact List.append_nil _
    | cons c rest =>
      rw [List.takeWhile_cons_of_neg (Bool.eq_false_iff.1 (hrest c rfl)), List.append_nil]
  have hdrop : (d :: ds ++ rest).dropWhile Char.isDigit = rest := by
    rw [List.dropWhile_append_of_pos hd]
    cases rest with
    | nil => rfl
    | cons c rest => exact List.dropWhile_cons_of_neg (Bool.eq_false_iff.1 (hrest c rfl))
  calc Numeral.scanDigits (d :: ds ++ rest)
      = .ok ((d :: ds ++ rest).takeWhile Char.isDigit,
          (d :: ds ++ rest).dropWhile Char.isDigit) := if_pos (hd d List.mem_cons_self)
    _ = .ok (d :: ds, rest) := by rw [htake, hdrop]

/-- The digits of a whole number are taken off a text that they cannot go on in. -/
theorem scanWhole_toDigits (n : Nat) (hrest : ∀ c ∈ rest.head?, c.isDigit = false) :
    Numeral.scanWhole (Nat.toDigits 10 n ++ rest) = .ok (Nat.toDigits 10 n, rest) := by
  rcases Nat.eq_zero_or_pos n with rfl | hpos
  · cases rest with
    | nil => rfl
    | cons c rest => exact if_neg (Bool.eq_false_iff.1 (hrest c rfl))
  · obtain ⟨c, cs, hcs, hc⟩ := toDigits_head hpos
    have hscan := scanDigits_append (fun d hd => isDigit_toDigits (hcs ▸ hd)) hrest
    rw [hcs, ← hscan]
    -- The text does not begin with a zero.
    unfold Numeral.scanWhole
    split
    · next heq => exact absurd (List.cons.inj heq).1 hc
    · rfl

theorem scanFraction_of_ne (h : cs.head? ≠ some '.') : Numeral.scanFraction cs = .ok ([], cs) := by
  unfold Numeral.scanFraction
  split
  · exact absurd rfl h
  · rfl

theorem scanFraction_of_delimited (h : Delimited rest) :
    Numeral.scanFraction rest = .ok ([], rest) :=
  scanFraction_of_ne fun hhead => (h '.' hhead).2.1 rfl

theorem scanExponent_of_delimited (h : Delimited rest) :
    Numeral.scanExponent rest = .ok ((false, []), rest) := by
  cases rest with
  | nil => rfl
  | cons c rest =>
    obtain ⟨-, -, he, hE⟩ := h c rfl
    exact if_neg (not_or.2 ⟨he, hE⟩)

/-- The parts of a numeral behind its sign. -/
def Numeral.scanUnsigned (negative : Bool) (cs : List Char) :
    Except Numeral.Fault (Numeral × List Char) := do
  let (whole, cs) ← Numeral.scanWhole cs
  let (fraction, cs) ← Numeral.scanFraction cs
  let ((exponentNegative, exponent), cs) ← Numeral.scanExponent cs
  return (⟨negative, whole, fraction, exponentNegative, exponent⟩, cs)

theorem scan_minus (cs : List Char) :
    Numeral.scan ('-' :: cs) = Numeral.scanUnsigned true cs := rfl

theorem scan_of_ne_minus (h : cs.head? ≠ some '-') :
    Numeral.scan cs = Numeral.scanUnsigned false cs := by
  unfold Numeral.scan
  split
  next negative cs' hsplit =>
    have hpositive : (negative, cs') = (false, cs) := by
      rw [← hsplit]
      split
      · exact absurd rfl h
      · rfl
    cases hpositive
    rfl

theorem scanUnsigned_toDigits (negative : Bool) (n : Nat) (hrest : Delimited rest) :
    Numeral.scanUnsigned negative (Nat.toDigits 10 n ++ rest) =
      .ok (⟨negative, Nat.toDigits 10 n, [], false, []⟩, rest) := by
  have hwhole := scanWhole_toDigits n fun c hc => (hrest c hc).1
  simp only [Numeral.scanUnsigned, hwhole, scanFraction_of_delimited hrest,
    scanExponent_of_delimited hrest, Bind.bind, Except.bind, Pure.pure, Except.pure]

theorem scan_toDigits (n : Nat) (hrest : Delimited rest) :
    Numeral.scan (Nat.toDigits 10 n ++ rest) =
      .ok (⟨false, Nat.toDigits 10 n, [], false, []⟩, rest) := by
  rw [scan_of_ne_minus, scanUnsigned_toDigits false n hrest]
  obtain ⟨d, ds, hds⟩ := List.exists_cons_of_ne_nil (Nat.toDigits_ne_nil (b := 10) (n := n))
  rw [hds]
  rintro ⟨⟩
  exact absurd (isDigit_toDigits (n := n) (hds ▸ List.mem_cons_self)) (by decide)

theorem number?_natural (n : UInt64) :
    Numeral.number? ⟨false, Nat.toDigits 10 n.toNat, [], false, []⟩ = some (.natural n) := by
  have hlt : (n.toNat : Int) < UInt64.size := Int.ofNat_lt.2 n.toNat_lt_size
  have hint : Number.ofInt? n.toNat = some (.natural n) := by
    rw [Number.ofInt?, if_pos (Int.natCast_nonneg _), if_pos hlt, Int.toNat_natCast,
      UInt64.ofNat_toNat]
  rw [Numeral.number?]
  simp only [digitsValue_toDigits, hint]
  rfl

theorem readNumber_of_scan {x : Numeral} {n : Number} (h : Numeral.scan cs = .ok (x, rest))
    (hn : x.number? = some n) : readNumber cs = .ok (n, rest) := by
  rw [readNumber, h]
  simp only [hn]

theorem readNumber_natural (n : UInt64) (hrest : Delimited rest) :
    readNumber (Nat.toDigits 10 n.toNat ++ rest) = .ok (.natural n, rest) :=
  readNumber_of_scan (scan_toDigits n.toNat hrest) (number?_natural n)

theorem number?_negative (n : Fin 0x8000000000000000) :
    Numeral.number? ⟨true, Nat.toDigits 10 (n.val + 1), [], false, []⟩ = some (.negative n) := by
  have hint : Number.ofInt? (-((n.val + 1 : Nat) : Int)) = some (.negative n) := by
    have hvalue : (-(-((n.val + 1 : Nat) : Int)) - 1).toNat = n.val := by omega
    rw [Number.ofInt?, if_neg (by omega)]
    simp only [hvalue, n.isLt, dif_pos]
  rw [Numeral.number?]
  simp only [digitsValue_toDigits, if_true, if_neg (show ((n.val + 1 : Nat) : Int) ≠ 0 by omega),
    hint]
  rfl

theorem readNumber_negative (n : Fin 0x8000000000000000) (hrest : Delimited rest) :
    readNumber ('-' :: Nat.toDigits 10 (n.val + 1) ++ rest) = .ok (.negative n, rest) :=
  readNumber_of_scan (scanUnsigned_toDigits true (n.val + 1) hrest) (number?_negative n)

/-! ## Items and members -/

theorem nextItem_append {lead : List Char} (hl : Lead first lead) (hs : Solid cs) :
    nextItem first (lead ++ cs) = .ok (.more cs) := by
  obtain ⟨c, tail, rfl, hc, hne⟩ := hs
  cases hl with
  | first hg =>
    rw [nextItem, skipBlanks_append_cons hg hc]
    simp only [if_neg hne, if_true]
  | next hg hg' =>
    rw [nextItem, List.append_assoc, List.cons_append, skipBlanks_append_cons hg rfl]
    simp only [skipBlanks_append_cons hg' hc, if_neg hne]
    rfl

theorem nextItem_closed (hg : Blanks gap) : nextItem first (gap ++ ']' :: rest) =
    .ok (.closed rest) := by
  rw [nextItem, skipBlanks_append_cons hg rfl]
  rfl

theorem nextName_append {lead : List Char} (hl : Lead first lead) :
    nextName first (lead ++ '"' :: cs) = .ok (.more cs) := by
  cases hl with
  | first hg =>
    rw [nextName, skipBlanks_append_cons hg rfl]
    rfl
  | next hg hg' =>
    have hquote : skipBlanks (_ ++ '"' :: cs) = '"' :: cs := skipBlanks_append_cons hg' rfl
    rw [nextName, List.append_assoc, List.cons_append, skipBlanks_append_cons hg rfl]
    simp only [hquote]
    rfl

theorem nextName_closed (hg : Blanks gap) : nextName first (gap ++ '}' :: rest) =
    .ok (.closed rest) := by
  rw [nextName, skipBlanks_append_cons hg rfl]
  rfl

theorem readColon_append (hg : Blanks gap) : readColon (gap ++ ':' :: rest) = .ok rest := by
  rw [readColon, skipBlanks_append_cons hg rfl]
  rfl

end ClusterKeeper.Json
