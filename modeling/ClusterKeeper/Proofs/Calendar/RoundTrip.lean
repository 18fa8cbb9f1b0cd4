/-
# Moments read back

Every day has one date, and the date of a day counts back to it. A moment whose year the reader
knows is read back from its text.
-/

import ClusterKeeper.Calendar.Reading

namespace ClusterKeeper

/-! ## Days and dates -/

namespace Date

section Cycle

variable {d y : Int}

/-- A year is in the century that its days are in, but for the last day of the cycle, which the
four centuries leave over. -/
theorem century_of_day (h0 : 0 ≤ d) (h1 : d < daysOfCycle)
    (hy : y = (d - d / 1460 + d / 36524 - d / 146096) / 365) :
    y / 100 = d / 36524 ∨ d = 146096 := by
  rw [daysOfCycle] at h1
  have hcentury : d / 36524 = 0 ∨ d / 36524 = 1 ∨ d / 36524 = 2 ∨ d / 36524 = 3 ∨ d = 146096 := by
    omega
  rcases hcentury with h | h | h | h | rfl <;> omega

/-- The year of a cycle begins no later than each of its days. -/
theorem yearStart_le (h0 : 0 ≤ d) (h1 : d < daysOfCycle)
    (hy : y = (d - d / 1460 + d / 36524 - d / 146096) / 365) :
    365 * y + y / 4 - y / 100 ≤ d := by
  rcases century_of_day h0 h1 hy with hcentury | rfl
  · rw [daysOfCycle] at h1
    omega
  · omega

/-- A year has 365 days, and one more if a leap day is its last one. -/
theorem sub_yearStart_le (h0 : 0 ≤ d) (h1 : d < daysOfCycle)
    (hy : y = (d - d / 1460 + d / 36524 - d / 146096) / 365) :
    d - (365 * y + y / 4 - y / 100) ≤ 364 ∨
      d - (365 * y + y / 4 - y / 100) = 365 ∧ y % 4 = 3 ∧ (y % 100 ≠ 99 ∨ y = 399) := by
  rcases century_of_day h0 h1 hy with hcentury | rfl
  · rw [daysOfCycle] at h1
    omega
  · omega

theorem yearOfCycle_bounds (h0 : 0 ≤ d) (h1 : d < daysOfCycle)
    (hy : y = (d - d / 1460 + d / 36524 - d / 146096) / 365) : 0 ≤ y ∧ y < 400 := by
  rw [daysOfCycle] at h1
  omega

end Cycle

/-- Where a day is in its cycle of 400 years that begin with March. -/
structure InCycle (n cycle year day : Int) : Prop where
  eq : cycle * daysOfCycle + (year * 365 + year / 4 - year / 100 + day) - daysBefore1970 = n
  year_nonneg : 0 ≤ year
  year_lt : year < 400
  day_nonneg : 0 ≤ day
  /-- The last day of a leap year is its leap day. -/
  day_le : day ≤ 364 ∨ day = 365 ∧ year % 4 = 3 ∧ (year % 100 ≠ 99 ∨ year = 399)

/-- The date of a day is counted from its place in its cycle. -/
theorem exists_inCycle (n : Int) : ∃ cycle year day month, InCycle n cycle year day ∧
    month = (5 * day + 2) / 153 ∧
    ofDays n =
      { year := if month < 10 then year + cycle * 400 else year + cycle * 400 + 1
        month := (if month < 10 then month + 3 else month - 9).toNat
        day := (day - (153 * month + 2) / 5 + 1).toNat } := by
  have h0 : 0 ≤ (n + daysBefore1970) % daysOfCycle := Int.emod_nonneg _ (by decide)
  have h1 : (n + daysBefore1970) % daysOfCycle < daysOfCycle := Int.emod_lt_of_pos _ (by decide)
  have hsplit := Int.mul_ediv_add_emod (n + daysBefore1970) daysOfCycle
  obtain ⟨hnonneg, hlt⟩ := yearOfCycle_bounds h0 h1 rfl
  have hle := yearStart_le h0 h1 rfl
  have hlast := sub_yearStart_le h0 h1 rfl
  refine ⟨(n + daysBefore1970) / daysOfCycle, _, _, _, ⟨?_, hnonneg, hlt, ?_, hlast⟩, rfl, rfl⟩
  · rw [Int.mul_comm] at hsplit
    omega
  · omega

/-- The date of a day counts back to the day. -/
theorem toDays_ofDays (n : Int) : (ofDays n).toDays = n := by
  obtain ⟨cycle, year, day, month, h, rfl, hdate⟩ := exists_inCycle n
  obtain ⟨heq, hyear, hyear', hday, hday'⟩ := h
  rw [hdate, toDays, ← heq]
  simp only [daysOfCycle, daysBefore1970]
  omega

/-- The date of a day is in the calendar. -/
theorem isValid_ofDays (n : Int) : (ofDays n).isValid = true := by
  obtain ⟨cycle, year, day, month, h, hmonth, hdate⟩ := exists_inCycle n
  obtain ⟨-, hyear, hyear', hday, hday'⟩ := h
  rw [hdate]
  simp only [isValid, Bool.and_eq_true, decide_eq_true_iff]
  refine ⟨⟨⟨by omega, by omega⟩, by omega⟩, ?_⟩
  simp only [daysInMonth, isLeap, Bool.and_eq_true, Bool.or_eq_true, beq_iff_eq, bne_iff_ne]
  by_cases hlate : month < 10
  · simp only [if_pos hlate]
    rw [if_neg (by omega)]
    split <;> omega
  · simp only [if_neg hlate]
    split
    · split <;> omega
    · rw [if_neg (by omega)]
      omega

end Date

/-! ## Numbers -/

theorem toList_padded (width n : Nat) : (padded width n).toList =
    List.replicate (width - (Nat.toDigits 10 n).length) '0' ++ Nat.toDigits 10 n :=
  String.toList_ofList

theorem isDigit_of_mem_padded {width n : Nat} {c : Char} (h : c ∈ (padded width n).toList) :
    c.isDigit = true := by
  rw [toList_padded, List.mem_append] at h
  rcases h with h | h
  · rw [List.eq_of_mem_replicate h]
    rfl
  · exact Nat.isDigit_of_mem_toDigits (by decide) (by decide) h

theorem padded_ne_nil (width n : Nat) : (padded width n).toList ≠ [] := by
  rw [toList_padded]
  exact List.append_ne_nil_of_right_ne_nil _ Nat.toDigits_ne_nil

theorem length_padded {width n : Nat} (hwidth : 0 < width) (hn : n < Nat.pow 10 width) :
    (padded width n).toList.length = width := by
  have hle := (Nat.length_toDigits_le_iff (b := 10) (by decide) hwidth).2 hn
  rw [toList_padded, List.length_append, List.length_replicate]
  omega

/-- Zeros in front do not change a number. -/
theorem ofDigitChars_padded (width n : Nat) :
    Nat.ofDigitChars 10 (padded width n).toList 0 = n := by
  have hzeros (k : Nat) : Nat.ofDigitChars 10 (List.replicate k '0') 0 = 0 := by
    induction k with
    | zero => rfl
    | succ k ih =>
      rw [List.replicate_succ, Nat.ofDigitChars_cons]
      exact ih
  rw [toList_padded, Nat.ofDigitChars_append, hzeros,
    Nat.ofDigitChars_toDigits (by decide) (by decide)]

namespace Moment

variable {cs rest : List Char} {width : Nat}

/-- Digits are taken as far as the number may go or there are any. -/
theorem number?_append (hne : cs ≠ []) (hcs : ∀ c ∈ cs, c.isDigit = true)
    (hwidth : cs.length ≤ width)
    (hrest : cs.length = width ∨ ∀ c ∈ rest.head?, c.isDigit = false) :
    number? width (cs ++ rest) = some (Nat.ofDigitChars 10 cs 0, rest) := by
  have htake : ((cs ++ rest).take width).takeWhile Char.isDigit = cs := by
    rw [List.take_append, List.take_of_length_le hwidth, List.takeWhile_append_of_pos hcs]
    suffices hnil : (rest.take (width - cs.length)).takeWhile Char.isDigit = [] by
      rw [hnil, List.append_nil]
    rcases hrest with hlength | hrest
    · rw [hlength, Nat.sub_self, List.take_zero, List.takeWhile_nil]
    · cases rest with
      | nil => rw [List.take_nil, List.takeWhile_nil]
      | cons c rest =>
        cases width - cs.length with
        | zero => rfl
        | succ k => exact List.takeWhile_cons_of_neg (Bool.eq_false_iff.1 (hrest c rfl))
  rw [number?, htake, List.isEmpty_eq_false_iff.2 hne, List.drop_left]
  rfl

/-- A number in its full width is read back, whatever comes next. -/
theorem number?_padded {n : Nat} (hwidth : 0 < width) (hn : n < Nat.pow 10 width) :
    number? width ((padded width n).toList ++ rest) = some (n, rest) := by
  have hlength := length_padded hwidth hn
  rw [number?_append (padded_ne_nil _ _) (fun _ => isDigit_of_mem_padded) (Nat.le_of_eq hlength)
    (.inl hlength),
    ofDigitChars_padded]

/-- A number is read back in front of what is no digit. -/
theorem number?_padded_append {k n : Nat} (hlength : (padded k n).toList.length ≤ width)
    (hrest : ∀ c ∈ rest.head?, c.isDigit = false) :
    number? width ((padded k n).toList ++ rest) = some (n, rest) := by
  rw [number?_append (padded_ne_nil _ _) (fun _ => isDigit_of_mem_padded) hlength (.inr hrest),
    ofDigitChars_padded]

/-! ## Parts of a date and of a time -/

theorem skipWhite_of_head (h : ∀ c ∈ cs.head?, Text.isWhite c = false) : skipWhite cs = cs := by
  cases cs with
  | nil => rfl
  | cons c cs => exact List.dropWhile_cons_of_neg (Bool.eq_false_iff.1 (h c rfl))

theorem isWhite_of_isDigit {c : Char} (h : c.isDigit = true) : Text.isWhite c = false := by
  rw [Char.isDigit, Bool.and_eq_true, decide_eq_true_iff, decide_eq_true_iff] at h
  have hlow : 48 ≤ c.toNat := h.1
  have hhigh : c.toNat ≤ 57 := h.2
  rw [Bool.eq_false_iff]
  simp only [Text.isWhite, Text.whiteSpace, List.any_cons, List.any_nil, ne_eq, Bool.or_eq_true,
    Bool.and_eq_true, decide_eq_true_iff, Bool.false_eq_true, or_false]
  omega

theorem skipWhite_padded (n : Nat) :
    skipWhite ((padded width n).toList ++ rest) = (padded width n).toList ++ rest := by
  obtain ⟨d, ds, hds⟩ := List.exists_cons_of_ne_nil (padded_ne_nil width n)
  have hd : d.isDigit = true := isDigit_of_mem_padded (hds ▸ List.mem_cons_self)
  refine skipWhite_of_head fun c hc => ?_
  rw [hds] at hc
  cases hc
  exact isWhite_of_isDigit hd

theorem field?_padded {n : Nat} (hn : n < 100) :
    field? 2 ((padded 2 n).toList ++ rest) = some (n, rest) := by
  rw [field?, skipWhite_padded]
  exact number?_padded (by decide) hn

theorem sign?_cons {c : Char} (hc : Text.isWhite c = false) : sign? c (c :: rest) = some rest := by
  rw [sign?, skipWhite_of_head (by rintro d ⟨⟩; exact hc)]
  exact if_pos rfl

/-! ## The text of a moment -/

/-- A year of four digits is read back, whatever comes next. -/
theorem year?_padded {n : Nat} (hn : n < 10000) :
    year? ((padded 4 n).toList ++ rest) = some ((n : Int), rest) := by
  have hread : number? 4 ((padded 4 n).toList ++ rest) = some (n, rest) :=
    number?_padded (by decide) hn
  obtain ⟨d, ds, hds⟩ := List.exists_cons_of_ne_nil (padded_ne_nil 4 n)
  have hd : d.isDigit = true := isDigit_of_mem_padded (hds ▸ List.mem_cons_self)
  rw [year?, skipWhite_padded]
  rw [hds, List.cons_append] at hread ⊢
  -- A digit is neither of the signs.
  split
  · next heq =>
    rw [(List.cons.inj heq).1] at hd
    cases hd
  · next heq =>
    rw [(List.cons.inj heq).1] at hd
    cases hd
  · rw [hread, Option.map_some]

theorem year?_minus {n : Nat} (h : number? cs.length cs = some (n, rest)) :
    year? ('-' :: cs) = some (-(n : Int), rest) := by
  rw [year?, skipWhite_of_head (by rintro c ⟨⟩; rfl)]
  exact congrArg (Option.map _) h

theorem year?_plus {n : Nat} (h : number? cs.length cs = some (n, rest)) :
    year? ('+' :: cs) = some ((n : Int), rest) := by
  rw [year?, skipWhite_of_head (by rintro c ⟨⟩; rfl)]
  exact congrArg (Option.map _) h

/-- A year is read back in front of a hyphen. -/
theorem year?_yearText (y : Int) :
    year? ((yearText y).toList ++ '-' :: rest) = some (y, '-' :: rest) := by
  have hread : number? ((padded 4 y.natAbs).toList ++ '-' :: rest).length
      ((padded 4 y.natAbs).toList ++ '-' :: rest) = some (y.natAbs, '-' :: rest) := by
    refine number?_padded_append ?_ ?_
    · rw [List.length_append]
      exact Nat.le_add_right _ _
    · rintro c ⟨⟩
      rfl
  rw [yearText]
  split
  · next h => rw [year?_padded (by omega), Int.toNat_of_nonneg h.1]
  · split
    · have hy : -(y.natAbs : Int) = y := by omega
      have htext : ("-" ++ padded 4 y.natAbs).toList = '-' :: (padded 4 y.natAbs).toList := by
        rw [String.toList_append]
        rfl
      rw [htext, List.cons_append, year?_minus hread, hy]
    · have hy : (y.natAbs : Int) = y := by omega
      have htext : ("+" ++ padded 4 y.natAbs).toList = '+' :: (padded 4 y.natAbs).toList := by
        rw [String.toList_append]
        rfl
      rw [htext, List.cons_append, year?_plus hread, hy]

/-- The year is one that the reader knows. -/
def KnowsYear (y : Int) : Prop := -262143 ≤ y ∧ y ≤ 262142

instance (y : Int) : Decidable (KnowsYear y) :=
  inferInstanceAs (Decidable (-262143 ≤ y ∧ y ≤ 262142))

theorem date?_text {days : Int} (hyear : KnowsYear (Date.ofDays days).year) :
    date? ((yearText (Date.ofDays days).year).toList ++
        '-' :: ((padded 2 (Date.ofDays days).month).toList ++
          '-' :: ((padded 2 (Date.ofDays days).day).toList ++ rest))) =
      some (Date.ofDays days, rest) := by
  have hvalid := Date.isValid_ofDays days
  obtain ⟨hmonth, hday⟩ : (Date.ofDays days).month < 100 ∧ (Date.ofDays days).day < 100 := by
    have hlast (y : Int) (m : Nat) : Date.daysInMonth y m ≤ 31 := by
      rw [Date.daysInMonth]
      split
      · split <;> decide
      · split <;> decide
    have hle := hlast (Date.ofDays days).year (Date.ofDays days).month
    simp only [Date.isValid, Bool.and_eq_true, decide_eq_true_iff] at hvalid
    omega
  rw [date?, year?_yearText]
  simp only [Bind.bind, Option.bind, sign?_cons (show Text.isWhite '-' = false by decide),
    field?_padded hmonth, field?_padded hday]
  rw [if_pos]
  simp only [hvalid, Bool.true_and, Bool.and_eq_true, decide_eq_true_iff]
  exact hyear

/-- The part of a second is read back in front of what is no digit. -/
theorem fraction?_fractionText {nanos : Nat} (hnanos : nanos < nanosPerSecond)
    (hrest : ∀ c ∈ rest.head?, c.isDigit = false ∧ c ≠ '.') :
    fraction? ((fractionText nanos).toList ++ rest) = some (nanos, rest) := by
  have hdigit : ∀ c ∈ rest.head?, c.isDigit = false := fun c hc => (hrest c hc).1
  have hdrop : rest.dropWhile Char.isDigit = rest := by
    cases rest with
    | nil => rfl
    | cons c rest => exact List.dropWhile_cons_of_neg (Bool.eq_false_iff.1 (hdigit c rfl))
  -- Any group of digits up to nine is read back, with as many zeros as are missing.
  have hgroup (k n : Nat) (hk : 0 < k) (hk' : k ≤ 9) (hn : n < 10 ^ k) :
      fraction? (("." ++ padded k n).toList ++ rest) = some (n * 10 ^ (9 - k), rest) := by
    have hlength := length_padded hk hn
    have htext : ("." ++ padded k n).toList = '.' :: (padded k n).toList := by
      rw [String.toList_append]
      rfl
    have hread := number?_padded_append (Nat.le_trans (Nat.le_of_eq hlength) hk') hdigit
    have htaken : ((padded k n).toList ++ rest).length - rest.length = k := by
      rw [List.length_append, hlength, Nat.add_sub_cancel]
    rw [htext, List.cons_append, fraction?]
    simp only [hread, Bind.bind, Option.bind, htaken, hdrop]
    rfl
  rw [nanosPerSecond] at hnanos
  rw [fractionText]
  split
  · next hzero =>
    subst hzero
    rw [String.toList_empty, List.nil_append, fraction?]
    rintro cs rfl
    exact (hrest _ rfl).2 rfl
  split
  · next hmilli =>
    rw [hgroup 3 _ (by decide) (by decide) (by rw [nanosPerMilli]; omega)]
    have hscale : nanos / nanosPerMilli * 10 ^ (9 - 3) = nanos :=
      Nat.div_mul_cancel (Nat.dvd_of_mod_eq_zero hmilli)
    rw [hscale]
  split
  · next hmicro =>
    rw [hgroup 6 _ (by decide) (by decide) (by rw [nanosPerMicro]; omega)]
    have hscale : nanos / nanosPerMicro * 10 ^ (9 - 6) = nanos :=
      Nat.div_mul_cancel (Nat.dvd_of_mod_eq_zero hmicro)
    rw [hscale]
  · rw [hgroup 9 _ (by decide) (by decide) (by omega), Nat.sub_self, Nat.pow_zero, Nat.mul_one]

/-- The time of a day is read back in front of what is neither a digit nor a point. -/
theorem time?_text {time nanos : Nat} (htime : time < 86400) (hnanos : nanos < nanosPerSecond)
    (hrest : ∀ c ∈ rest.head?, c.isDigit = false ∧ c ≠ '.') :
    time? ((padded 2 (time / 3600)).toList ++
        ':' :: ((padded 2 (time / 60 % 60)).toList ++
          ':' :: ((padded 2 (time % 60)).toList ++ ((fractionText nanos).toList ++ rest)))) =
      some (time, nanos, rest) := by
  have hseconds : time / 3600 * 3600 + time / 60 % 60 * 60 + min (time % 60) 59 = time := by omega
  have hhour : ¬ 23 < time / 3600 := by omega
  have hminute : ¬ 59 < time / 60 % 60 := by omega
  have hsecond : ¬ 60 < time % 60 := by omega
  have hleap : time % 60 ≠ 60 := by omega
  rw [time?]
  simp only [Bind.bind, Option.bind, sign?_cons (show Text.isWhite ':' = false by decide),
    field?_padded (show time / 3600 < 100 by omega),
    field?_padded (show time / 60 % 60 < 100 by omega),
    field?_padded (show time % 60 < 100 by omega), fraction?_fractionText hnanos hrest, hseconds,
    hhour, hminute, hsecond, hleap, decide_false, Bool.or_self, if_false]
  rfl

/-- The moment is one that a clock can show. -/
structure OnClock (m : Moment) : Prop where
  nanos_lt : m.nanos < nanosPerSecond
  knowsYear : KnowsYear (Date.ofDays (m.seconds / 86400)).year

instance (m : Moment) : Decidable m.OnClock :=
  decidable_of_iff
    (m.nanos < nanosPerSecond ∧ KnowsYear (Date.ofDays (m.seconds / 86400)).year)
    ⟨fun h => ⟨h.1, h.2⟩, fun h => ⟨h.1, h.2⟩⟩

/-- A moment is read back from its text. -/
theorem parse?_stamp {m : Moment} (h : m.OnClock) : parse? m.stamp = some m := by
  have htime : (m.seconds % 86400).toNat < 86400 := by omega
  have hleap : m.nanos / nanosPerSecond = 0 := Nat.div_eq_of_lt h.nanos_lt
  have htext : m.stamp.toList =
      (yearText (Date.ofDays (m.seconds / 86400)).year).toList ++
        '-' :: ((padded 2 (Date.ofDays (m.seconds / 86400)).month).toList ++
          '-' :: ((padded 2 (Date.ofDays (m.seconds / 86400)).day).toList ++
            'T' :: ((padded 2 ((m.seconds % 86400).toNat / 3600)).toList ++
              ':' :: ((padded 2 ((m.seconds % 86400).toNat / 60 % 60)).toList ++
                ':' :: ((padded 2 ((m.seconds % 86400).toNat % 60)).toList ++
                  ((fractionText m.nanos).toList ++ ['Z'])))))) := by
    have hhyphen : "-".toList = ['-'] := rfl
    have hcolon : ":".toList = [':'] := rfl
    have hmark : "T".toList = ['T'] := rfl
    have hzone : "Z".toList = ['Z'] := rfl
    simp only [stamp, textWith, String.toList_append, hleap, Nat.add_zero,
      Nat.mod_eq_of_lt h.nanos_lt, List.append_assoc, hhyphen, hcolon, hmark, hzone,
      List.cons_append, List.nil_append]
  have hread := time?_text htime h.nanos_lt
    (show ∀ c ∈ ['Z'].head?, c.isDigit = false ∧ c ≠ '.' by rintro c ⟨⟩; decide)
  have hday : (Date.ofDays (m.seconds / 86400)).toDays * 86400 + (m.seconds % 86400).toNat - 0 =
      m.seconds := by
    rw [Date.toDays_ofDays]
    omega
  rw [parse?, htext]
  simp only [date?_text h.knowsYear, Bind.bind, Option.bind, hread]
  exact congrArg (fun seconds => some (⟨seconds, m.nanos⟩ : Moment)) hday

end Moment

end ClusterKeeper
