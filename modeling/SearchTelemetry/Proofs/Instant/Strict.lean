import SearchTelemetry.Proofs.Instant.Printed
/-!
# Instant.Strict — which texts of instants clients may send

The writer gives a year past 9999 or below zero a sign and as many digits as it needs.  The strict form has four digits for
the year and the mail form begins with a day, so that neither takes a sign: the text of an instant is read as that instant if
its year has four digits, and refused otherwise (`read?_chars`).
-/
namespace SearchTelemetry
namespace Instant

open Numeral (padded)

/-- The year is one of four digits. -/
def HasFourDigitYear (t : Instant) : Prop :=
  0 ≤ t.toCivil.year ∧ t.toCivil.year ≤ 9999

instance (t : Instant) : Decidable t.HasFourDigitYear :=
  inferInstanceAs (Decidable (_ ∧ _))

theorem yearChars_of_four {year : Int} (h : 0 ≤ year ∧ year ≤ 9999) : yearChars year = padded 4 year.toNat :=
  if_pos h

theorem exists_sign_of_not_four {year : Int} (h : ¬(0 ≤ year ∧ year ≤ 9999)) :
    ∃ c ds, yearChars year = c :: ds ∧ (c = '-' ∨ c = '+') := by
  rw [yearChars, if_neg h]
  by_cases hneg : year < 0
  · exact ⟨'-', _, by rw [if_pos hneg], .inl rfl⟩
  · exact ⟨'+', _, by rw [if_neg hneg], .inr rfl⟩

/-! ## No blanks -/

theorem not_isBlank_of_mem_padded {width n : Nat} {c : Char} (h : c ∈ padded width n) : Blank.isBlank c = false :=
  isBlank_of_isDigit (Numeral.isDigit_of_mem_padded h)

theorem not_isBlank_of_mem_yearChars {year : Int} {c : Char} (h : c ∈ yearChars year) : Blank.isBlank c = false := by
  unfold yearChars at h
  split at h
  · exact not_isBlank_of_mem_padded h
  · rcases List.mem_cons.1 h with rfl | h
    · split <;> decide
    · exact not_isBlank_of_mem_padded h

theorem not_isBlank_of_mem_fractionChars {nanos : Nat} {c : Char} (h : c ∈ fractionChars nanos) :
    Blank.isBlank c = false := by
  have hcons : ∀ {width n : Nat}, c ∈ '.' :: padded width n → Blank.isBlank c = false := fun h => by
    rcases List.mem_cons.1 h with rfl | h
    · decide
    · exact not_isBlank_of_mem_padded h
  unfold fractionChars at h
  split at h
  · cases h
  split at h
  · exact hcons h
  split at h
  · exact hcons h
  · exact hcons h

theorem trim_chars (t : Instant) : Blank.trim t.chars = t.chars := by
  refine Blank.trim_of_forall fun c hc => ?_
  rw [chars_eq] at hc
  simp only [List.mem_append, List.mem_cons, List.not_mem_nil, or_false] at hc
  have hdigits : ∀ {n : Nat}, c ∈ padded 2 n → Blank.isBlank c = false := not_isBlank_of_mem_padded
  rcases hc with h | rfl | h | rfl | h | rfl | h | rfl | h | rfl | h | h | rfl
  · exact not_isBlank_of_mem_yearChars h
  · decide
  · exact hdigits h
  · decide
  · exact hdigits h
  · decide
  · exact hdigits h
  · decide
  · exact hdigits h
  · decide
  · exact hdigits h
  · exact not_isBlank_of_mem_fractionChars h
  · decide

/-! ## Years of four digits -/

theorem strictCivil_chars {t : Instant} (h : t.Valid) (hy : t.HasFourDigitYear) :
    strictCivil t.chars = some (t.toCivil, []) := by
  obtain ⟨-, hmonth, hday, hhour, hminute, hsecond, hnanos⟩ := toCivil_bounds h
  have hvalue : ∀ {i : Int}, 0 ≤ i ∧ i < 100 → (i.toNat : Int) = i := fun hi => Int.toNat_of_nonneg hi.1
  have hyear : ∀ rest, number 4 4 (padded 4 t.toCivil.year.toNat ++ rest) = some (t.toCivil.year.toNat, rest) :=
    number_padded_full (by decide) (by decide) (by have := hy.2; omega)
  have htwo : ∀ {i : Int}, 0 ≤ i ∧ i < 100 → ∀ rest, number 2 2 (padded 2 i.toNat ++ rest) = some (i.toNat, rest) :=
    fun hi => number_padded_full (by decide) (by decide) (by omega)
  have hmark : ∀ rest, dateTimeMark ('T' :: rest) = some rest := fun rest => by simp [dateTimeMark]
  have hsame : ∀ c rest, expect c (c :: rest) = some rest := fun c rest => by simp [expect]
  have hfraction := optionalFraction_fractionChars hnanos (by decide : Numeral.isDigit 'Z' = false) (by decide) []
  have hguard : -maxStrictOffset ≤ 0 ∧ 0 ≤ maxStrictOffset := by decide
  rw [chars_eq, yearChars_of_four hy, strictCivil]
  refine Option.bind_eq_some_iff.2 ⟨_, hyear _, ?_⟩
  refine Option.bind_eq_some_iff.2 ⟨_, hsame _ _, ?_⟩
  refine Option.bind_eq_some_iff.2 ⟨_, htwo hmonth _, ?_⟩
  refine Option.bind_eq_some_iff.2 ⟨_, hsame _ _, ?_⟩
  refine Option.bind_eq_some_iff.2 ⟨_, htwo hday _, ?_⟩
  refine Option.bind_eq_some_iff.2 ⟨_, hmark _, ?_⟩
  refine Option.bind_eq_some_iff.2 ⟨_, htwo hhour _, ?_⟩
  refine Option.bind_eq_some_iff.2 ⟨_, hsame _ _, ?_⟩
  refine Option.bind_eq_some_iff.2 ⟨_, htwo hminute _, ?_⟩
  refine Option.bind_eq_some_iff.2 ⟨_, hsame _ _, ?_⟩
  refine Option.bind_eq_some_iff.2 ⟨_, htwo hsecond _, ?_⟩
  refine Option.bind_eq_some_iff.2 ⟨_, hfraction, ?_⟩
  refine Option.bind_eq_some_iff.2 ⟨(0, []), rfl, ?_⟩
  refine Option.bind_eq_some_iff.2 ⟨(), if_pos hguard, ?_⟩
  simp only [Int.toNat_of_nonneg hy.1, hvalue hmonth, hvalue hday, hvalue hhour, hvalue hminute, hvalue hsecond]
  rfl

/-! ## Years with a sign -/

theorem number_of_not_isDigit {least most : Nat} (hl : 0 < least) {c : Char} (hc : Numeral.isDigit c = false)
    (cs : List Char) : number least most (c :: cs) = none := by
  have hnone : ((c :: cs).take most).takeWhile Numeral.isDigit = [] := by
    cases most <;> simp [hc]
  simp [number, hnone, hl]

theorem shortName_dayNames_of_sign {c : Char} (hc : c = '-' ∨ c = '+') (cs : List Char) :
    shortName dayNames (c :: cs) = none := by
  have hnotMem : String.ofList (((c :: cs).take 3).map Char.toLower) ∉ dayNames := by
    intro h
    have hlower : c.toLower = c := by rcases hc with rfl | rfl <;> decide
    have hfirst : ∀ name ∈ dayNames, name.toList.head? ≠ some c := by rcases hc with rfl | rfl <;> decide
    exact hfirst _ h (by simp [hlower])
  have hidx : dayNames.idxOf? (String.ofList (((c :: cs).take 3).map Char.toLower)) = none :=
    List.idxOf?_eq_none_iff.2 hnotMem
  simp only [shortName, hidx]

/-- Neither form begins with a sign. -/
theorem read?_of_sign {c : Char} (hc : c = '-' ∨ c = '+') {cs : List Char} (htrim : Blank.trim (c :: cs) = c :: cs) :
    read? (c :: cs) = none := by
  have hdigit : Numeral.isDigit c = false := by rcases hc with rfl | rfl <;> decide
  have hblank : Blank.isBlank c = false := by rcases hc with rfl | rfl <;> decide
  have hstrict : strict? (c :: cs) = none := by
    have hcivil : strictCivil (c :: cs) = none := by
      rw [strictCivil, number_of_not_isDigit (by decide) hdigit]
      rfl
    rw [strict?, hcivil]
  have hmail : mail? (c :: cs) = none := by
    have hcivil : mailCivil (c :: cs) = none := by
      have hweekday : optionalWeekday (c :: cs) = some (none, c :: cs) := by
        rw [optionalWeekday, shortName_dayNames_of_sign hc]
      have hday : number 1 2 (Blank.trimStart (c :: cs)) = none := by
        rw [trimStart_cons hblank, number_of_not_isDigit (by decide) hdigit]
      rw [mailCivil, trimStart_cons hblank, hweekday, Option.bind_eq_bind, Option.bind_some]
      dsimp only
      rw [hday]
      rfl
    rw [mail?, hcivil]
  simp only [read?, htrim, hstrict, hmail]

/-- **The text of an instant is read by the forms for clients if its year has four digits.** -/
theorem read?_chars {t : Instant} (h : t.Valid) : read? t.chars = if t.HasFourDigitYear then some t else none := by
  by_cases hy : t.HasFourDigitYear
  · have hstrict : strict? t.chars = some t := by
      rw [strict?, strictCivil_chars h hy]
      exact ofCivil?_toCivil h
    rw [if_pos hy]
    simp only [read?, trim_chars, hstrict]
  · obtain ⟨c, ds, hyear, hc⟩ := exists_sign_of_not_four hy
    have htrim := trim_chars t
    rw [if_neg hy]
    rw [chars_eq, hyear, List.cons_append] at htrim ⊢
    exact read?_of_sign hc htrim

end Instant
end SearchTelemetry
