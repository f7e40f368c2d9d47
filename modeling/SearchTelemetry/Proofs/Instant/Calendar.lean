import SearchTelemetry.Instant.Basic
/-!
# Instant.Calendar — days and dates

`civilOfDays` gives every day a date of the calendar, and `daysOfCivil` leads from it back to the day (`civilOfDays_spec`).
An era of 400 years is taken apart as the calendar has it: three centuries without a leap day at their end and one with it,
in each of them cycles of four years, and years that begin in March.  An instant in range is found again from its date and
time in UTC (`ofCivil?_toCivil`), and what is found is in range (`valid_of_ofCivil?`).
-/
namespace SearchTelemetry
namespace Instant

/-- Days of an era by century, cycle, year of the cycle and day of the year.  The day that leap years add is the 365th; no
century but the last has it at its end. -/
theorem exists_parts_of_era {n : Int} (h0 : 0 ≤ n) (h1 : n ≤ 146096) :
    ∃ c q y d : Int, n = 36524 * c + 1461 * q + 365 * y + d ∧ (0 ≤ c ∧ c ≤ 3) ∧ (0 ≤ q ∧ q ≤ 24) ∧ (0 ≤ y ∧ y ≤ 3) ∧
      (0 ≤ d ∧ d ≤ 365) ∧ (d = 365 → y = 3 ∧ (q < 24 ∨ c = 3)) := by
  obtain ⟨c, hc0, hc3, hr0, hr1⟩ : ∃ c : Int, 0 ≤ c ∧ c ≤ 3 ∧ 0 ≤ n - 36524 * c ∧
      (n - 36524 * c ≤ 36523 ∨ c = 3 ∧ n - 36524 * c ≤ 36524) := by
    by_cases h : n = 146096
    · exact ⟨3, by omega, by omega, by omega, by omega⟩
    · exact ⟨n / 36524, by omega, by omega, by omega, by omega⟩
  obtain ⟨q, hq⟩ : ∃ q, q = (n - 36524 * c) / 1461 := ⟨_, rfl⟩
  obtain ⟨r, hr⟩ : ∃ r, r = n - 36524 * c - 1461 * q := ⟨_, rfl⟩
  have hr' : 0 ≤ r ∧ r ≤ 1460 := by omega
  by_cases h : r = 1460
  · exact ⟨c, q, 3, 365, by omega, by omega, by omega, by omega, by omega, by omega⟩
  · exact ⟨c, q, r / 365, r % 365, by omega, by omega, by omega, by omega, by omega, by omega⟩

/-- The year of an era is found from the day of the era. -/
theorem year_of_parts {c q y d : Int} (hc : 0 ≤ c ∧ c ≤ 3) (hq : 0 ≤ q ∧ q ≤ 24) (hy : 0 ≤ y ∧ y ≤ 3)
    (hd : 0 ≤ d ∧ d ≤ 365) (hleap : d = 365 → y = 3 ∧ (q < 24 ∨ c = 3)) {n : Int}
    (hn : n = 36524 * c + 1461 * q + 365 * y + d) :
    (n - n / 1460 + n / 36524 - n / 146096) / 365 = 100 * c + 4 * q + y := by
  have hwithin : 1461 * q + 365 * y + d ≤ 36523 ∨ c = 3 ∧ 1461 * q + 365 * y + d = 36524 := by omega
  have hcentury : n / 36524 - n / 146096 = c := by
    rcases hwithin with h | ⟨rfl, h⟩
    · have hdays : 36524 * c ≤ n ∧ n ≤ 36524 * c + 36523 := by omega
      have hquotient : n / 36524 = c := by omega
      have hnone : n / 146096 = 0 := by omega
      omega
    · obtain rfl : n = 146096 := by omega
      decide
  obtain ⟨t, ht, ht'⟩ : ∃ t : Int, n / 1460 = 25 * c + q + t ∧ (t = 0 ∧ 365 * y + d < 1460 ∨ t = 1 ∧ 1364 ≤ 365 * y + d) := by
    by_cases h : 24 * c + q + 365 * y + d < 1460
    · exact ⟨0, by omega, by omega⟩
    · exact ⟨1, by omega, by omega⟩
  omega

/-- The days before a year, by the parts of the year. -/
theorem days_before_year {c q y : Int} (hq : 0 ≤ q ∧ q ≤ 24) (hy : 0 ≤ y ∧ y ≤ 3) :
    365 * (100 * c + 4 * q + y) + (100 * c + 4 * q + y) / 4 - (100 * c + 4 * q + y) / 100 =
      36524 * c + 1461 * q + 365 * y := by
  have hcycle : (100 * c + 4 * q + y) / 4 = 25 * c + q := by omega
  have hcentury : (100 * c + 4 * q + y) / 100 = c := by omega
  omega

theorem day_of_era_le {c q y d : Int} (hc : 0 ≤ c ∧ c ≤ 3) (hq : 0 ≤ q ∧ q ≤ 24) (hy : 0 ≤ y ∧ y ≤ 3)
    (hd : 0 ≤ d ∧ d ≤ 365) :
    0 ≤ 36524 * c + 1461 * q + 365 * y + d ∧ 36524 * c + 1461 * q + 365 * y + d ≤ 146096 := by
  omega

/-- The date of a day by the parts of its era; `m` is the month, counted from March. -/
theorem civilOfDays_eq {days era c q y d m : Int} (hc : 0 ≤ c ∧ c ≤ 3) (hq : 0 ≤ q ∧ q ≤ 24) (hy : 0 ≤ y ∧ y ≤ 3)
    (hd : 0 ≤ d ∧ d ≤ 365) (hleap : d = 365 → y = 3 ∧ (q < 24 ∨ c = 3))
    (hdays : days + 719468 = 146097 * era + (36524 * c + 1461 * q + 365 * y + d)) (hm : (5 * d + 2) / 153 = m) :
    civilOfDays days =
      (100 * c + 4 * q + y + era * 400 + (if (if m < 10 then m + 3 else m - 9) ≤ 2 then 1 else 0),
        if m < 10 then m + 3 else m - 9, d - (153 * m + 2) / 5 + 1) := by
  have hn := day_of_era_le hc hq hy hd
  have hyear := year_of_parts hc hq hy hd hleap rfl
  have hbefore := @days_before_year c q y hq hy
  have hday : 36524 * c + 1461 * q + 365 * y + d -
      (365 * (100 * c + 4 * q + y) + (100 * c + 4 * q + y) / 4 - (100 * c + 4 * q + y) / 100) = d := by
    rw [hbefore]
    omega
  generalize 36524 * c + 1461 * q + 365 * y + d = n at *
  have hera : (days + 719468) / 146097 = era := by
    clear hyear hbefore hday
    omega
  have hrest : (days + 719468) % 146097 = n := by
    clear hyear hbefore hday
    omega
  simp only [civilOfDays, hera, hrest, hyear, hday, hm]

/-- The day of a date, by the same parts. -/
theorem daysOfCivil_eq {era c q y d m : Int} (hc : 0 ≤ c ∧ c ≤ 3) (hq : 0 ≤ q ∧ q ≤ 24) (hy : 0 ≤ y ∧ y ≤ 3)
    (hm : 0 ≤ m ∧ m ≤ 11) :
    daysOfCivil (100 * c + 4 * q + y + era * 400 + (if (if m < 10 then m + 3 else m - 9) ≤ 2 then 1 else 0))
        (if m < 10 then m + 3 else m - 9) (d - (153 * m + 2) / 5 + 1) =
      146097 * era + (36524 * c + 1461 * q + 365 * y + d) - 719468 := by
  have hbefore := @days_before_year c q y hq hy
  have hyear : 0 ≤ 100 * c + 4 * q + y ∧ 100 * c + 4 * q + y < 400 := by omega
  have hmonth : ((if m < 10 then m + 3 else m - 9) + 9) % 12 = m := by
    split <;> omega
  have hstart : (if (if m < 10 then m + 3 else m - 9) ≤ 2 then 100 * c + 4 * q + y + era * 400 +
      (if (if m < 10 then m + 3 else m - 9) ≤ 2 then 1 else 0) - 1 else 100 * c + 4 * q + y + era * 400 +
      (if (if m < 10 then m + 3 else m - 9) ≤ 2 then 1 else 0)) = 100 * c + 4 * q + y + era * 400 := by
    split <;> omega
  simp only [daysOfCivil, hmonth, hstart]
  generalize 100 * c + 4 * q + y = Y at *
  have h4 : (Y + era * 400) / 4 = Y / 4 + era * 100 := by omega
  have h100 : (Y + era * 400) / 100 = Y / 100 + era * 4 := by omega
  have h400 : (Y + era * 400) / 400 = era := by omega
  omega

/-- No month has fewer days than `civilOfDays` gives it. -/
theorem day_le_daysInMonth {era c q y d m : Int} (hq : 0 ≤ q ∧ q ≤ 24) (hy : 0 ≤ y ∧ y ≤ 3)
    (hd : 0 ≤ d ∧ d ≤ 365) (hleap : d = 365 → y = 3 ∧ (q < 24 ∨ c = 3)) (hm : (5 * d + 2) / 153 = m)
    (hm' : 0 ≤ m ∧ m ≤ 11) :
    d - (153 * m + 2) / 5 + 1 ≤
      daysInMonth (100 * c + 4 * q + y + era * 400 + (if (if m < 10 then m + 3 else m - 9) ≤ 2 then 1 else 0))
        (if m < 10 then m + 3 else m - 9) := by
  by_cases hfebruary : m = 11
  · subst hfebruary
    by_cases hlast : d = 365
    · have hyear : isLeapYear (100 * c + 4 * q + y + era * 400 + 1) = true := by
        obtain ⟨rfl, h⟩ := hleap hlast
        have hfour : (100 * c + 4 * q + 3 + era * 400 + 1) % 4 = 0 := by omega
        have hcentury : (100 * c + 4 * q + 3 + era * 400 + 1) % 100 ≠ 0 ∨
            (100 * c + 4 * q + 3 + era * 400 + 1) % 400 = 0 := by omega
        simpa [isLeapYear, hfour] using hcentury
      simp [daysInMonth, hyear]
      omega
    · unfold daysInMonth
      simp
      split <;> omega
  · have hmonths : m = 0 ∨ m = 1 ∨ m = 2 ∨ m = 3 ∨ m = 4 ∨ m = 5 ∨ m = 6 ∨ m = 7 ∨ m = 8 ∨ m = 9 ∨ m = 10 := by omega
    unfold daysInMonth
    rcases hmonths with rfl | rfl | rfl | rfl | rfl | rfl | rfl | rfl | rfl | rfl | rfl <;> simp <;> omega

/-- **Every day has a date of the calendar**, which leads back to the day. -/
theorem civilOfDays_spec (days : Int) {year month day : Int} (h : civilOfDays days = (year, month, day)) :
    daysOfCivil year month day = days ∧ (1 ≤ month ∧ month ≤ 12) ∧ 1 ≤ day ∧ day ≤ daysInMonth year month := by
  obtain ⟨c, q, y, d, hparts, hc, hq, hy, hd, hleap⟩ :=
    @exists_parts_of_era ((days + 719468) % 146097) (by omega) (by omega)
  have hdays : days + 719468 =
      146097 * ((days + 719468) / 146097) + (36524 * c + 1461 * q + 365 * y + d) := by omega
  obtain ⟨m, hm, hm'⟩ : ∃ m, (5 * d + 2) / 153 = m ∧ 0 ≤ m ∧ m ≤ 11 := ⟨_, rfl, by omega, by omega⟩
  rw [civilOfDays_eq hc hq hy hd hleap hdays hm, Prod.mk.injEq, Prod.mk.injEq] at h
  obtain ⟨rfl, rfl, rfl⟩ := h
  refine ⟨?_, ?_, ?_, day_le_daysInMonth hq hy hd hleap hm hm'⟩
  · rw [daysOfCivil_eq hc hq hy hm']
    omega
  · split <;> omega
  · omega

/-! ## Instants in range -/

/-- The year of an instant is one that instants may lie in, and its nanoseconds are those of its second, or of a leap second
behind the last second of a minute. -/
structure Valid (t : Instant) : Prop where
  year : minYear ≤ (civilOfDays (t.seconds / 86400)).1 ∧ (civilOfDays (t.seconds / 86400)).1 ≤ maxYear
  nanos : t.nanos < 1000000000 ∨ t.nanos < 2000000000 ∧ t.seconds % 60 = 59

/-- **An instant is found again from its date and time.** -/
theorem ofCivil?_toCivil {t : Instant} (h : t.Valid) : ofCivil? t.toCivil = some t := by
  obtain ⟨hyear, hnanos⟩ := h
  obtain ⟨year, month, day, hdate⟩ : ∃ year month day, civilOfDays (t.seconds / 86400) = (year, month, day) :=
    ⟨_, _, _, rfl⟩
  obtain ⟨hdays, ⟨hmonth, hmonth'⟩, hday, hday'⟩ := civilOfDays_spec _ hdate
  rw [hdate] at hyear
  obtain ⟨rest, hrest⟩ : ∃ rest, t.seconds % 86400 = rest := ⟨_, rfl⟩
  have hhour : 0 ≤ rest / 3600 ∧ rest / 3600 ≤ 23 := by omega
  have hminute : 0 ≤ rest / 60 % 60 ∧ rest / 60 % 60 ≤ 59 := by omega
  have hsum : t.seconds / 86400 * 86400 + rest / 3600 * 3600 + rest / 60 % 60 * 60 + rest % 60 = t.seconds := by omega
  by_cases hleap : 1000000000 ≤ t.nanos
  · have hsecond : rest % 60 = 59 := by omega
    have hnanos' : t.nanos - 1000000000 < 1000000000 ∧ t.nanos - 1000000000 + 1000000000 = t.nanos := by omega
    rw [hsecond] at hsum
    simp [ofCivil?, toCivil, Civil.dateOk, Civil.timeOk, hdate, hrest, hdays, hyear, hmonth, hmonth', hday, hday', hhour,
      hminute, hleap, hsecond, hnanos', hsum]
  · have hsecond : rest % 60 ≠ 60 ∧ 0 ≤ rest % 60 ∧ rest % 60 ≤ 60 := by omega
    have hnanos' : t.nanos < 1000000000 := by omega
    simp [ofCivil?, toCivil, Civil.dateOk, Civil.timeOk, hdate, hrest, hdays, hyear, hmonth, hmonth', hday, hday', hhour,
      hminute, hleap, hsecond, hnanos', hsum]

/-- **What is found from a date and time is in range**, if the offset has no part of a minute. -/
theorem valid_of_ofCivil? {c : Civil} {t : Instant} (h : ofCivil? c = some t) (ho : c.offset % 60 = 0) : t.Valid := by
  unfold ofCivil? at h
  by_cases hleap : c.second = 60
  · simp only [hleap, if_true] at h
    split at h
    · rename_i hok
      obtain ⟨-, -, hnanos, -, -, -, hyear⟩ := hok
      obtain rfl := Option.some.inj h
      exact ⟨hyear, .inr ⟨by simpa using Nat.add_lt_add_right hnanos 1000000000, by dsimp only; omega⟩⟩
    · cases h
  · simp only [hleap, if_false] at h
    split at h
    · rename_i hok
      obtain ⟨-, -, hnanos, -, -, -, hyear⟩ := hok
      obtain rfl := Option.some.inj h
      exact ⟨hyear, .inl hnanos⟩
    · cases h

end Instant
end SearchTelemetry
