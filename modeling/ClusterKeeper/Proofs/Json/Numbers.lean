/-
# Numbers of any kind

A part of a text that is read is refused, or it is taken up to its end. That is so of all numbers as
they are written, doubles included: a double is written as a sign, digits, a fraction and an
exponent, each taken up to its end if it is taken at all. Which number is read does not matter here.
-/

import ClusterKeeper.Proofs.Json.RoundTrip

namespace ClusterKeeper.Json

variable {α β ε : Type} {e : ε} {p q : Prop} {cs rest rest' : List Char}

/-! ## Taking a part of a text -/

/-- What comes of reading a part of a text in front of the rest: it is refused, for the reason that
is given, or it is taken up to its end, and then a condition holds. -/
inductive TakenOnlyIf (e : ε) (p : Prop) (rest : List Char) :
    Except ε (α × List Char) → Prop
  | refused : TakenOnlyIf e p rest (.error e)
  | taken (x : α) (h : p) : TakenOnlyIf e p rest (.ok (x, rest))

namespace TakenOnlyIf

theorem eq_error {r : Except ε (α × List Char)} (h : TakenOnlyIf e p rest r) (hp : ¬p) :
    r = .error e := by
  cases h with
  | refused => rfl
  | taken x h => exact absurd h hp

theorem mono {r : Except ε (α × List Char)} (h : TakenOnlyIf e p rest r) (hpq : p → q) :
    TakenOnlyIf e q rest r := by
  cases h with
  | refused => exact .refused
  | taken x h => exact .taken x (hpq h)

theorem map (f : α → β) {r : Except ε (α × List Char)} (h : TakenOnlyIf e p rest r) :
    TakenOnlyIf e p rest (r.map fun x => (f x.1, x.2)) := by
  cases h with
  | refused => exact .refused
  | taken x h => exact .taken (f x) h

/-- One part is taken behind another. -/
theorem bind {r : Except ε (α × List Char)} {f : α × List Char → Except ε (β × List Char)}
    (h : TakenOnlyIf e p rest r) (hf : ∀ x, p → TakenOnlyIf e q rest' (f (x, rest))) :
    TakenOnlyIf e q rest' (r >>= f) := by
  cases h with
  | refused => exact .refused
  | taken x h => exact hf x h

end TakenOnlyIf

/-! ## Numerals of any kind -/

/-- The text goes on, and not with a digit. -/
def EndsDigits (cs : List Char) : Prop := ∃ c rest, cs = c :: rest ∧ c.isDigit = false

theorem Delimited.endsDigits (h : Delimited rest) (hne : rest ≠ []) : EndsDigits rest := by
  obtain ⟨c, cs, rfl⟩ := List.exists_cons_of_ne_nil hne
  exact ⟨c, cs, rfl, (h c rfl).1⟩

/-- Nothing or a point and digits. -/
inductive IsFraction : List Char → Prop
  | absent : IsFraction []
  | present {ds : List Char} (h : ∀ d ∈ ds, d.isDigit = true) : IsFraction ('.' :: ds)

/-- Nothing or an exponent with its sign. -/
inductive IsExponent : List Char → Prop
  | absent : IsExponent []
  | present {sign : Char} {ds : List Char} (hs : sign = '+' ∨ sign = '-')
      (h : ∀ d ∈ ds, d.isDigit = true) : IsExponent ('e' :: sign :: ds)

/-- Digits, of which there may be none or too many zeros, then a fraction and an exponent. -/
inductive IsUnsigned : List Char → Prop
  | mk {ds fraction exponent : List Char} (h : ∀ d ∈ ds, d.isDigit = true)
      (hf : IsFraction fraction) (he : IsExponent exponent) :
      IsUnsigned (ds ++ (fraction ++ exponent))

theorem takenOnlyIf_scanDigits {ds : List Char} (h : ∀ d ∈ ds, d.isDigit = true)
    (hrest : EndsDigits rest) :
    TakenOnlyIf .broken True rest (Numeral.scanDigits (ds ++ rest)) := by
  obtain ⟨c, cs, rfl, hc⟩ := hrest
  cases ds with
  | nil =>
    rw [List.nil_append, Numeral.scanDigits, if_neg (Bool.eq_false_iff.1 hc)]
    exact .refused
  | cons d ds =>
    rw [scanDigits_append h (by rintro d ⟨⟩; exact hc)]
    exact .taken _ trivial

/-- A zero in front of further digits is refused. -/
theorem takenOnlyIf_scanWhole {ds : List Char} (h : ∀ d ∈ ds, d.isDigit = true)
    (hrest : EndsDigits rest) :
    TakenOnlyIf .broken True rest (Numeral.scanWhole (ds ++ rest)) := by
  have hdigits := takenOnlyIf_scanDigits h hrest
  unfold Numeral.scanWhole
  split
  · next c tail heq =>
    split
    · exact .refused
    · next hc =>
      -- The zero is all that there is.
      obtain rfl | ⟨d, rfl⟩ : ds = [] ∨ ∃ d, ds = [d] := by
        rcases ds with _ | ⟨d, _ | ⟨d', ds⟩⟩
        · exact .inl rfl
        · exact .inr ⟨d, rfl⟩
        · cases heq
          exact absurd (h c (by simp)) hc
      · obtain ⟨d, tail', rfl, hd⟩ := hrest
        cases heq
        exact absurd hd (by decide)
      · cases heq
        exact .taken _ trivial
  · exact hdigits

theorem IsExponent.endsDigits (he : IsExponent cs) (hrest : Delimited rest) (hne : rest ≠ []) :
    EndsDigits (cs ++ rest) := by
  cases he with
  | absent => exact hrest.endsDigits hne
  | present hs h => exact ⟨'e', _, rfl, rfl⟩

theorem IsFraction.endsDigits (hf : IsFraction cs) (hrest : EndsDigits rest) :
    EndsDigits (cs ++ rest) := by
  cases hf with
  | absent => exact hrest
  | present h => exact ⟨'.', _, rfl, rfl⟩

theorem IsExponent.takenOnlyIf (he : IsExponent cs) (hrest : Delimited rest) (hne : rest ≠ []) :
    TakenOnlyIf .broken True rest (Numeral.scanExponent (cs ++ rest)) := by
  cases he with
  | absent =>
    rw [List.nil_append, scanExponent_of_delimited hrest]
    exact .taken _ trivial
  | @present sign ds hs h =>
    have hdigits := takenOnlyIf_scanDigits h (hrest.endsDigits hne)
    rcases hs with rfl | rfl
    · exact hdigits.map fun ds => (false, ds)
    · exact hdigits.map fun ds => (true, ds)

theorem IsFraction.takenOnlyIf (hf : IsFraction cs) (hpoint : rest.head? ≠ some '.')
    (hrest : EndsDigits rest) :
    TakenOnlyIf .broken True rest (Numeral.scanFraction (cs ++ rest)) := by
  cases hf with
  | absent =>
    rw [List.nil_append, scanFraction_of_ne hpoint]
    exact .taken _ trivial
  | present h => exact takenOnlyIf_scanDigits h hrest

theorem IsExponent.head?_ne (he : IsExponent cs) (hrest : Delimited rest) :
    (cs ++ rest).head? ≠ some '.' := by
  cases he with
  | absent => exact fun hhead => (hrest '.' hhead).2.1 rfl
  | present hs h => simp

theorem IsUnsigned.takenOnlyIf (h : IsUnsigned cs) (negative : Bool) (hrest : Delimited rest)
    (hne : rest ≠ []) :
    TakenOnlyIf .broken True rest (Numeral.scanUnsigned negative (cs ++ rest)) := by
  obtain ⟨hds, hf, he⟩ := h
  have hends := he.endsDigits hrest hne
  rw [List.append_assoc, List.append_assoc]
  refine (takenOnlyIf_scanWhole hds (hf.endsDigits hends)).bind fun whole _ => ?_
  refine (hf.takenOnlyIf (he.head?_ne hrest) hends).bind fun fraction _ => ?_
  exact (he.takenOnlyIf hrest hne).bind fun exponent _ => .taken _ trivial

/-- A numeral without its sign begins with a digit, or with a point or an exponent where the digits
are missing. -/
theorem IsUnsigned.exists_head (h : IsUnsigned cs) (hne : cs ≠ []) :
    ∃ c tail, cs = c :: tail ∧ (c.isDigit = true ∨ c = '.' ∨ c = 'e') := by
  obtain ⟨hds, hf, he⟩ := h
  rename_i ds fraction exponent
  cases ds with
  | cons d ds => exact ⟨d, _, rfl, .inl (hds d List.mem_cons_self)⟩
  | nil =>
    cases hf with
    | present h => exact ⟨'.', _, rfl, .inr (.inl rfl)⟩
    | absent =>
      cases he with
      | present hs h => exact ⟨'e', _, rfl, .inr (.inr rfl)⟩
      | absent => exact absurd rfl hne

/-! ## The texts of doubles -/

/-- The decimal of a double has digits only. -/
theorem isDigit_shortest (x : Binary64) : ∀ d ∈ x.shortest.digits, d.isDigit = true := by
  have hzero : ∀ d ∈ ['0'], d.isDigit = true := List.forall_mem_singleton.2 rfl
  unfold Binary64.shortest
  split
  · exact hzero
  · dsimp only
    cases hf : List.findSome? _ (List.range 17) with
    | none => exact hzero
    | some r =>
      obtain ⟨count, -, hcount⟩ := List.exists_of_findSome?_eq_some hf
      obtain ⟨n, -, rfl⟩ := Option.map_eq_some_iff.1 hcount
      intro d hd
      have hmem := (List.dropWhile_sublist _).subset (List.mem_reverse.1 hd)
      exact isDigit_toDigits (List.mem_reverse.1 hmem)

theorem IsUnsigned.of_fraction {ds : List Char} (h : ∀ d ∈ ds, d.isDigit = true)
    (hf : IsFraction cs) : IsUnsigned (ds ++ cs) := by
  have hmk := IsUnsigned.mk h hf .absent
  rwa [List.append_nil] at hmk

theorem isUnsigned_positional {d : Decimal} (h : ∀ c ∈ d.digits, c.isDigit = true) :
    IsUnsigned d.positional := by
  have hzero : ∀ c ∈ ['0'], c.isDigit = true := List.forall_mem_singleton.2 rfl
  have hzeros (n : Nat) : ∀ c ∈ List.replicate n '0', c.isDigit = true := by
    intro c hc
    rw [List.eq_of_mem_replicate hc]
    rfl
  unfold Decimal.positional
  -- Either a zero and a fraction, or digits and behind the point whatever digits are left.
  split
  · change IsUnsigned (['0'] ++ '.' :: (List.replicate _ '0' ++ d.digits))
    exact .of_fraction hzero (.present (List.forall_mem_append.2 ⟨hzeros _, h⟩))
  · have hwhole : ∀ c ∈ d.digits.take (d.exponent.toNat + 1), c.isDigit = true :=
      fun c hc => h c (List.mem_of_mem_take hc)
    refine .of_fraction (List.forall_mem_append.2 ⟨hwhole, hzeros _⟩) (.present ?_)
    split
    · exact hzero
    · exact fun c hc => h c (List.mem_of_mem_drop hc)

theorem isUnsigned_scientific {d : Decimal} (h : ∀ c ∈ d.digits, c.isDigit = true) :
    IsUnsigned d.scientific := by
  have hexponent : IsExponent ('e' :: (if d.exponent < 0 then '-' else '+') ::
      Nat.toDigits 10 d.exponent.natAbs) := by
    refine .present ?_ fun c hc => isDigit_toDigits hc
    split
    · exact .inr rfl
    · exact .inl rfl
  obtain ⟨digits, exponent⟩ := d
  rcases digits with _ | ⟨c, _ | ⟨c', cs⟩⟩
  · exact .mk (List.forall_mem_nil _) .absent hexponent
  · exact @IsUnsigned.mk [c] _ _ h .absent hexponent
  · obtain ⟨hc, hcs⟩ := List.forall_mem_cons.1 h
    exact @IsUnsigned.mk [c] _ _ (List.forall_mem_singleton.2 hc) (.present hcs) hexponent

theorem isUnsigned_text {d : Decimal} (h : ∀ c ∈ d.digits, c.isDigit = true) :
    IsUnsigned d.text := by
  unfold Decimal.text
  split
  · exact isUnsigned_positional h
  · exact isUnsigned_scientific h

theorem decimal_text_ne_nil (d : Decimal) : d.text ≠ [] := by
  unfold Decimal.text Decimal.positional Decimal.scientific
  split <;> split <;> simp

/-! ## Numbers -/

theorem exists_head_text (n : Number) :
    ∃ c tail, n.text = c :: tail ∧ (startsNumber c = true ∨ c = '.' ∨ c = 'e') := by
  have hdigit {c : Char} (hc : c.isDigit = true) : startsNumber c = true := by
    rw [startsNumber, hc, Bool.or_true]
  cases n with
  | natural n =>
    obtain ⟨d, ds, hds, hd⟩ := exists_digit_text n
    exact ⟨d, ds, hds, .inl (hdigit hd)⟩
  | negative n => exact ⟨'-', _, rfl, .inl rfl⟩
  | double x =>
    obtain ⟨c, tail, htail, hc⟩ :=
      (isUnsigned_text (isDigit_shortest x)).exists_head (decimal_text_ne_nil _)
    rw [Number.text, Binary64.text]
    split
    · exact ⟨'-', _, rfl, .inl rfl⟩
    · exact ⟨c, tail, htail, hc.imp_left hdigit⟩

theorem takenOnlyIf_scan (n : Number) (hrest : Delimited rest) (hne : rest ≠ []) :
    TakenOnlyIf .broken True rest (Numeral.scan (n.text ++ rest)) := by
  cases n with
  | natural n =>
    rw [Number.text, scan_toDigits n.toNat hrest]
    exact .taken _ trivial
  | negative n =>
    rw [Number.text, List.cons_append, scan_minus, scanUnsigned_toDigits true _ hrest]
    exact .taken _ trivial
  | double x =>
    have hunsigned := isUnsigned_text (isDigit_shortest x)
    rw [Number.text, Binary64.text]
    split
    · exact hunsigned.takenOnlyIf true hrest hne
    · obtain ⟨c, tail, htail, hc⟩ := hunsigned.exists_head (decimal_text_ne_nil _)
      rw [List.nil_append, scan_of_ne_minus]
      · exact hunsigned.takenOnlyIf false hrest hne
      · rw [htail]
        rintro ⟨⟩
        exact absurd hc (by decide)

/-- A number is taken up to its end, if it is not found to be malformed. -/
theorem takenOnlyIf_readNumber (n : Number) (hrest : Delimited rest) (hne : rest ≠ []) :
    TakenOnlyIf .malformed True rest (readNumber (n.text ++ rest)) := by
  have hscan := takenOnlyIf_scan n hrest hne
  rw [readNumber]
  cases hr : Numeral.scan (n.text ++ rest) with
  | error fault =>
    rw [hr] at hscan
    cases hscan
    exact .refused
  | ok x =>
    rw [hr] at hscan
    cases hscan with
    | taken x _ =>
      dsimp only
      cases x.number? with
      | none => exact .refused
      | some n => exact .taken n trivial

end ClusterKeeper.Json
