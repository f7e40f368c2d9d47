import SearchTelemetry.Instant.Reader
import SearchTelemetry.Proofs.Instant.Calendar
import SearchTelemetry.Proofs.Text.Numeral
/-!
# Instant.Printed — the text of an instant is read back

Each field of the text of an instant is read back by the relaxed form where it stands, and so the whole text is
(`relaxed?_chars`), years of more than four digits, years below zero and leap seconds included.  What a text is read as
is an instant in range (`valid_of_relaxed?`, `valid_of_read?`), so that its own text can be read again.
-/
namespace SearchTelemetry
namespace Instant

open Numeral (padded)

/-! ## Fields -/

theorem isBlank_of_isDigit {c : Char} (h : Numeral.isDigit c = true) : Blank.isBlank c = false := by
  obtain ⟨hl, hh⟩ := Numeral.le_of_isDigit h
  simp only [Blank.isBlank, Bool.or_eq_false_iff, Bool.and_eq_false_iff, decide_eq_false_iff_not, beq_eq_false_iff_ne]
  omega

theorem trimStart_cons {c : Char} (h : Blank.isBlank c = false) (cs : List Char) :
    Blank.trimStart (c :: cs) = c :: cs := by
  simp [Blank.trimStart, h]

/-- Digits are no blanks. -/
theorem trimStart_padded {width : Nat} (hw : 0 < width) (n : Nat) (rest : List Char) :
    Blank.trimStart (padded width n ++ rest) = padded width n ++ rest := by
  obtain ⟨c, cs, hc⟩ := List.exists_cons_of_length_pos (Nat.lt_of_lt_of_le hw (Numeral.le_length_padded width n))
  rw [hc, List.cons_append]
  exact trimStart_cons (isBlank_of_isDigit (Numeral.isDigit_of_mem_padded (by rw [hc]; simp))) _

/-- What follows digits is no digit. -/
def Ends (rest : List Char) : Prop :=
  ∀ c ∈ rest.head?, Numeral.isDigit c = false

theorem takeWhile_padded (width n : Nat) {rest : List Char} (h : Ends rest) :
    (padded width n ++ rest).takeWhile Numeral.isDigit = padded width n := by
  rw [List.takeWhile_append_of_pos fun c hc => Numeral.isDigit_of_mem_padded hc]
  cases rest with
  | nil => simp
  | cons c rest => simp [h c rfl]

/-- A number in its full width is read where there can be no more digits. -/
theorem number_padded_full {least width n : Nat} (hl : least ≤ width) (hw : 0 < width) (hn : n < 10 ^ width)
    (rest : List Char) : number least width (padded width n ++ rest) = some (n, rest) := by
  have hlength := Numeral.length_padded hw hn
  have hdigits : (padded width n).takeWhile Numeral.isDigit = padded width n := by
    simpa using @takeWhile_padded width n [] nofun
  have htake : (padded width n ++ rest).take width = padded width n := by
    rw [List.take_append_of_le_length (by omega), List.take_of_length_le (by omega)]
  have hdrop : (padded width n ++ rest).drop width = rest := List.drop_left' hlength
  simp only [number, htake, hdigits, hlength, if_neg (Nat.not_lt.2 hl), hdrop, Numeral.ofDigitChars_padded]

/-- A number is read up to what is no digit. -/
theorem number_padded_ends {least most width n : Nat} (hl : least ≤ width) (hm : width ≤ most) (hw : 0 < width)
    (hn : n < 10 ^ width) {rest : List Char} (h : Ends rest) :
    number least most (padded width n ++ rest) = some (n, rest) := by
  have hlength := Numeral.length_padded hw hn
  have htake : (padded width n ++ rest).take most = padded width n ++ rest.take (most - width) := by
    rw [List.take_append, List.take_of_length_le (by omega), hlength]
  have hends : Ends (rest.take (most - width)) := by
    cases rest with
    | nil => simpa using h
    | cons c rest =>
      cases most - width with
      | zero => exact nofun
      | succ k => exact h
  have hdrop : (padded width n ++ rest).drop width = rest := List.drop_left' hlength
  simp only [number, htake, takeWhile_padded width n hends, hlength, if_neg (Nat.not_lt.2 hl), hdrop,
    Numeral.ofDigitChars_padded]

theorem looseNumber_two {n : Nat} (hn : n < 100) (rest : List Char) :
    looseNumber 2 (padded 2 n ++ rest) = some (n, rest) := by
  rw [looseNumber, trimStart_padded (by decide)]
  exact number_padded_full (by decide) (by decide) hn rest

theorem looseExpect_cons {c : Char} (h : Blank.isBlank c = false) (rest : List Char) :
    looseExpect c (c :: rest) = some rest := by
  rw [looseExpect, trimStart_cons h, expect, if_pos rfl]

theorem longNumber_padded {n : Nat} (hn : n < Numeral.pow2 63) {rest : List Char} (h : Ends rest) :
    longNumber 1 (padded 4 n ++ rest) = some (n, rest) := by
  have hlength : ¬(padded 4 n).length < 1 := by
    have := Numeral.le_length_padded 4 n
    omega
  simp only [longNumber, takeWhile_padded 4 n h, Numeral.ofDigitChars_padded, List.drop_left, hlength,
    Nat.not_le.2 hn, or_self, if_false]

/-- A year is read back, with a sign or without. -/
theorem looseYear_yearChars {year : Int} (hy : minYear ≤ year ∧ year ≤ maxYear) {rest : List Char} (h : Ends rest) :
    looseYear (yearChars year ++ rest) = some (year, rest) := by
  have hbound : year.natAbs < Numeral.pow2 63 := by
    have : year.natAbs < 300000 := by
      simp only [minYear, maxYear] at hy
      omega
    exact Nat.lt_trans this (by decide)
  unfold yearChars
  split
  · rename_i hshort
    have hvalue : (year.toNat : Int) = year := Int.toNat_of_nonneg hshort.1
    have hn : year.toNat < 10 ^ 4 := by omega
    obtain ⟨c, cs, hc⟩ := List.exists_cons_of_length_pos
      (Nat.lt_of_lt_of_le (by decide : 0 < 4) (Numeral.le_length_padded 4 year.toNat))
    have hdigit : Numeral.isDigit c = true := Numeral.isDigit_of_mem_padded (by rw [hc]; simp)
    have hnumber := number_padded_full (by decide : 1 ≤ 4) (by decide) hn rest
    rw [looseYear, trimStart_padded (by decide)]
    rw [hc, List.cons_append] at hnumber ⊢
    split
    · rename_i heq
      obtain rfl := (List.cons.inj heq).1
      exact absurd hdigit (by decide)
    · rename_i heq
      obtain rfl := (List.cons.inj heq).1
      exact absurd hdigit (by decide)
    · rw [hnumber]
      simp [hvalue]
  · rename_i hlong
    have hnumber := longNumber_padded hbound h
    by_cases hneg : year < 0
    · have hvalue : -(year.natAbs : Int) = year := by omega
      rw [if_pos hneg, List.cons_append, looseYear, trimStart_cons (by decide)]
      simp only [hnumber, Option.map_some, hvalue]
    · have hvalue : (year.natAbs : Int) = year := by omega
      rw [if_neg hneg, List.cons_append, looseYear, trimStart_cons (by decide)]
      simp only [hnumber, Option.map_some, hvalue]

theorem fraction_padded {width n nanos : Nat} (hw : 0 < width) (hw' : width ≤ 9) (hn : n < 10 ^ width)
    (hv : n * Numeral.pow10 (9 - width) = nanos) {rest : List Char} (h : Ends rest) :
    optionalFraction ('.' :: padded width n ++ rest) = some (nanos, rest) := by
  have hlength := Numeral.length_padded hw hn
  have hdrop : rest.dropWhile Numeral.isDigit = rest := by
    cases rest with
    | nil => rfl
    | cons c rest => simp [h c rfl]
  have hused : (padded width n ++ rest).length - rest.length = width := by
    rw [List.length_append, hlength]
    omega
  rw [List.cons_append, optionalFraction, fraction, number_padded_ends hw hw' hw hn h]
  simp only [Option.bind_eq_bind, Option.bind_some, hused, hv, hdrop]
  rfl

/-- The part of a second is read back, in as few digits as it is written. -/
theorem optionalFraction_fractionChars {nanos : Nat} (hn : nanos < 1000000000) {c : Char} (hc : Numeral.isDigit c = false)
    (hp : c ≠ '.') (rest : List Char) :
    optionalFraction (fractionChars nanos ++ c :: rest) = some (nanos, c :: rest) := by
  have hends : Ends (c :: rest) := by
    intro d hd
    obtain rfl : c = d := by simpa using hd
    exact hc
  unfold fractionChars
  split
  · rename_i h0
    subst h0
    rw [List.nil_append]
    unfold optionalFraction
    split
    · rename_i heq
      exact absurd (List.cons.inj heq).1 hp
    · rfl
  split
  · rename_i h3
    have hv : nanos / 1000000 * Numeral.pow10 (9 - 3) = nanos := by
      have hten : Numeral.pow10 (9 - 3) = 1000000 := by decide
      rw [hten]
      omega
    exact fraction_padded (by decide) (by decide) (by omega) hv hends
  split
  · rename_i h6
    have hv : nanos / 1000 * Numeral.pow10 (9 - 6) = nanos := by
      have hten : Numeral.pow10 (9 - 6) = 1000 := by decide
      rw [hten]
      omega
    exact fraction_padded (by decide) (by decide) (by omega) hv hends
  · have hv : nanos * Numeral.pow10 (9 - 9) = nanos := by
      have hten : Numeral.pow10 (9 - 9) = 1 := by decide
      rw [hten]
      omega
    exact fraction_padded (by decide) (by decide) (by omega) hv hends

/-! ## Instants -/

theorem daysInMonth_le (year month : Int) : daysInMonth year month ≤ 31 := by
  unfold daysInMonth
  split
  · split <;> decide
  split <;> decide

/-- All fields of a date and time but the year have two digits. -/
theorem toCivil_bounds {t : Instant} (h : t.Valid) :
    (minYear ≤ t.toCivil.year ∧ t.toCivil.year ≤ maxYear) ∧ (0 ≤ t.toCivil.month ∧ t.toCivil.month < 100) ∧
      (0 ≤ t.toCivil.day ∧ t.toCivil.day < 100) ∧ (0 ≤ t.toCivil.hour ∧ t.toCivil.hour < 100) ∧
      (0 ≤ t.toCivil.minute ∧ t.toCivil.minute < 100) ∧ (0 ≤ t.toCivil.second ∧ t.toCivil.second < 100) ∧
      t.toCivil.nanos < 1000000000 := by
  obtain ⟨hyear, hnanos⟩ := h
  obtain ⟨year, month, day, hdate⟩ : ∃ year month day, civilOfDays (t.seconds / 86400) = (year, month, day) :=
    ⟨_, _, _, rfl⟩
  obtain ⟨-, hmonth, hday⟩ := civilOfDays_spec _ hdate
  have hlast := daysInMonth_le year month
  rw [hdate] at hyear
  simp only [toCivil, hdate]
  refine ⟨hyear, by omega, by omega, by omega, by omega, ?_, ?_⟩
  · split <;> omega
  · split
    · rename_i hleap
      omega
    · rename_i hleap
      omega

theorem chars_eq (t : Instant) :
    t.chars = yearChars t.toCivil.year ++ '-' :: (padded 2 t.toCivil.month.toNat ++ '-' ::
      (padded 2 t.toCivil.day.toNat ++ 'T' :: (padded 2 t.toCivil.hour.toNat ++ ':' ::
        (padded 2 t.toCivil.minute.toNat ++ ':' :: (padded 2 t.toCivil.second.toNat ++
          (fractionChars t.toCivil.nanos ++ ['Z'])))))) := by
  simp [chars, localChars]

/-- **The text of an instant is read back.** -/
theorem relaxed?_chars {t : Instant} (h : t.Valid) : relaxed? t.chars = some t := by
  obtain ⟨hyear, hmonth, hday, hhour, hminute, hsecond, hnanos⟩ := toCivil_bounds h
  have hends : ∀ rest, Ends ('-' :: rest) := fun rest c hc => by
    obtain rfl : '-' = c := by simpa using hc
    decide
  have hmark : ∀ rest, dateTimeMark ('T' :: rest) = some rest := fun rest => by simp [dateTimeMark]
  have hzone : looseOffset (Blank.trimStart ['Z']) = some (0, []) := by decide
  have hrelaxed : relaxedCivil t.chars = some (t.toCivil, []) := by
    have htwo : ∀ {i : Int}, 0 ≤ i ∧ i < 100 → ∀ rest, looseNumber 2 (padded 2 i.toNat ++ rest) = some (i.toNat, rest) :=
      fun hi rest => looseNumber_two (by omega) rest
    have hdash : ∀ rest, looseExpect '-' ('-' :: rest) = some rest := looseExpect_cons (by decide)
    have hcolon : ∀ rest, looseExpect ':' (':' :: rest) = some rest := looseExpect_cons (by decide)
    have hfraction := optionalFraction_fractionChars hnanos (by decide : Numeral.isDigit 'Z' = false) (by decide) []
    have hvalue : ∀ {i : Int}, 0 ≤ i ∧ i < 100 → (i.toNat : Int) = i := fun hi => Int.toNat_of_nonneg hi.1
    rw [chars_eq]
    simp only [relaxedCivil, looseYear_yearChars hyear (hends _), hdash, hcolon, hmark, htwo hmonth, htwo hday, htwo hhour,
      htwo hminute, htwo hsecond, hfraction, hzone, Option.bind_eq_bind, Option.bind_some, hvalue hmonth, hvalue hday,
      hvalue hhour, hvalue hminute, hvalue hsecond]
    rfl
  rw [relaxed?, hrelaxed]
  exact ofCivil?_toCivil h

/-! ## Instants that were read -/

theorem offsetSign_cases {longMinus : Bool} {cs rest : List Char} {sign : Int}
    (h : offsetSign longMinus cs = some (sign, rest)) : sign = 1 ∨ sign = -1 := by
  unfold offsetSign at h
  split at h
  · split at h
    · exact .inl (by simpa using (Prod.mk.inj (Option.some.inj h)).1.symm)
    split at h
    · exact .inr (by simpa using (Prod.mk.inj (Option.some.inj h)).1.symm)
    split at h
    · exact .inr (by simpa using (Prod.mk.inj (Option.some.inj h)).1.symm)
    · cases h
  · cases h

/-- An offset in hours and minutes has no part of a minute. -/
theorem offset_numericOffset {longMinus : Bool} {between : List Char → Option (List Char)} {cs rest : List Char}
    {offset : Int} (h : numericOffset longMinus between cs = some (offset, rest)) : offset % 60 = 0 := by
  unfold numericOffset at h
  obtain ⟨⟨sign, cs'⟩, hsign, h⟩ := Option.bind_eq_some_iff.1 h
  obtain ⟨⟨h1, h2⟩, -, h⟩ := Option.bind_eq_some_iff.1 h
  obtain ⟨cs'', -, h⟩ := Option.bind_eq_some_iff.1 h
  obtain ⟨⟨m1, m2⟩, -, h⟩ := Option.bind_eq_some_iff.1 h
  obtain ⟨-, -, h⟩ := Option.bind_eq_some_iff.1 h
  have heq := (Prod.mk.inj (Option.some.inj h)).1
  rcases offsetSign_cases hsign with rfl | rfl
  · omega
  · omega

theorem offset_zuluOffset {between : List Char → Option (List Char)} {cs rest : List Char} {offset : Int}
    (h : zuluOffset between cs = some (offset, rest)) : offset % 60 = 0 := by
  unfold zuluOffset at h
  split at h
  · split at h
    · have heq := (Prod.mk.inj (Option.some.inj h)).1
      omega
    · exact offset_numericOffset h
  · cases h

theorem offset_looseOffset {cs rest : List Char} {offset : Int} (h : looseOffset cs = some (offset, rest)) :
    offset % 60 = 0 := by
  unfold looseOffset at h
  split at h
  · have heq := (Prod.mk.inj (Option.some.inj h)).1
    omega
  · exact offset_zuluOffset h

theorem offset_relaxedCivil {cs rest : List Char} {c : Civil} (h : relaxedCivil cs = some (c, rest)) :
    c.offset % 60 = 0 := by
  unfold relaxedCivil at h
  -- all the fields before the zone
  iterate 12 obtain ⟨_, -, h⟩ := Option.bind_eq_some_iff.1 h
  obtain ⟨⟨offset, _⟩, hoffset, h⟩ := Option.bind_eq_some_iff.1 h
  obtain rfl := (Prod.mk.inj (Option.some.inj h)).1
  exact offset_looseOffset hoffset

/-- **What the relaxed form reads a text as is an instant in range.** -/
theorem valid_of_relaxed? {cs : List Char} {t : Instant} (h : relaxed? cs = some t) : t.Valid := by
  unfold relaxed? at h
  split at h
  · rename_i c rest hc
    split at h
    · exact valid_of_ofCivil? h (offset_relaxedCivil hc)
    · cases h
  · cases h

theorem offset_strictCivil {cs rest : List Char} {c : Civil} (h : strictCivil cs = some (c, rest)) :
    c.offset % 60 = 0 := by
  unfold strictCivil at h
  -- all the fields before the zone
  iterate 12 obtain ⟨_, -, h⟩ := Option.bind_eq_some_iff.1 h
  obtain ⟨⟨offset, _⟩, hoffset, h⟩ := Option.bind_eq_some_iff.1 h
  obtain ⟨-, -, h⟩ := Option.bind_eq_some_iff.1 h
  obtain rfl := (Prod.mk.inj (Option.some.inj h)).1
  exact offset_zuluOffset hoffset

theorem offset_mailOffset {cs rest : List Char} {offset : Int} (h : mailOffset cs = some (offset, rest)) :
    offset % 60 = 0 := by
  unfold mailOffset at h
  dsimp only at h
  split at h
  · exact offset_numericOffset h
  split at h
  · have heq := (Prod.mk.inj (Option.some.inj h)).1
    omega
  split at h
  · have heq := (Prod.mk.inj (Option.some.inj h)).1
    omega
  · cases h

theorem offset_mailCivil {cs rest : List Char} {c : Civil} (h : mailCivil cs = some (c, rest)) : c.offset % 60 = 0 := by
  unfold mailCivil at h
  -- all the fields before the zone
  iterate 12 obtain ⟨_, -, h⟩ := Option.bind_eq_some_iff.1 h
  obtain ⟨⟨offset, _⟩, hoffset, h⟩ := Option.bind_eq_some_iff.1 h
  obtain rfl := (Prod.mk.inj (Option.some.inj h)).1
  exact offset_mailOffset hoffset

/-- **What a text is read as is an instant in range.** -/
theorem valid_of_read? {cs : List Char} {t : Instant} (h : read? cs = some t) : t.Valid := by
  unfold read? at h
  dsimp only at h
  split at h
  · rename_i t' hstrict
    obtain rfl := Option.some.inj h
    unfold strict? at hstrict
    split at hstrict
    · rename_i c hc
      exact valid_of_ofCivil? hstrict (offset_strictCivil hc)
    · cases hstrict
  · unfold mail? at h
    split at h
    · rename_i c hc
      exact valid_of_ofCivil? h (offset_mailCivil hc)
    · cases h

end Instant
end SearchTelemetry
