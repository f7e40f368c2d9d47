import Mathlib.Order.Bounds.Basic
import SearchTelemetry.Proofs.Text.Cut
import SearchTelemetry.Text.Boundary
/-!
# Text.Boundary — where the beginnings of a text end

The boundaries of a text are the offsets at which its beginnings end (`isBoundary_encode_iff`).  The search from a limit
gives the greatest of them up to there (`isGreatest_lastBoundary`), and as no character takes more than four bytes, it goes
back by three at most (`min_le_lastBoundary_add`).
-/
namespace SearchTelemetry
namespace Utf8

variable {n : Nat} {cs p q : List Char}

/-! ## Beginnings -/

theorem width_pos (c : Char) : 0 < width c := by
  unfold width
  repeat' split
  all_goals omega

theorem length_eq_zero_iff : length cs = 0 ↔ cs = [] := by
  cases cs with
  | nil => simp
  | cons c cs =>
    have := width_pos c
    simp only [length_cons, reduceCtorEq, iff_false]
    omega

/-- Of two beginnings of a text, the one of fewer bytes is a beginning of the other. -/
theorem isPrefix_of_length_le (hp : p <+: cs) (hq : q <+: cs) (hle : length q ≤ length p) : q <+: p := by
  rcases List.prefix_or_prefix_of_prefix hq hp with h | ⟨d, rfl⟩
  · exact h
  · rw [length_append] at hle
    obtain rfl : d = [] := length_eq_zero_iff.1 (by omega)
    simp

theorem length_lt_iff_ne (h : p <+: cs) : length p < length cs ↔ p ≠ cs := by
  constructor
  · rintro hlt rfl
    exact Nat.lt_irrefl _ hlt
  · intro hne
    refine Nat.lt_of_not_le fun hle => hne ?_
    exact h.eq_of_length_le (isPrefix_of_length_le h (List.prefix_refl cs) hle).length_le

theorem take_encode (h : p <+: cs) : (encode cs).take (length p) = encode p := by
  obtain ⟨d, rfl⟩ := h
  rw [encode_append, List.take_left' (length_encode p)]

/-- The text in front of an offset is the beginning that ends there. -/
theorem front?_eq_some_iff : front? cs n = some p ↔ p <+: cs ∧ length p = n := by
  fun_induction front? cs n generalizing p with
  | case1 cs =>
    rw [Option.some.injEq, length_eq_zero_iff]
    exact ⟨fun h => h ▸ ⟨List.nil_prefix, rfl⟩, fun h => h.2.symm⟩
  | case2 n =>
    simp only [reduceCtorEq, false_iff]
    rintro ⟨hbegins, hlength⟩
    rw [List.prefix_nil.1 hbegins] at hlength
    cases hlength
  | case3 c cs n hfits ih =>
    rw [Option.map_eq_some_iff]
    constructor
    · rintro ⟨p, hp, rfl⟩
      obtain ⟨hbegins, hlength⟩ := ih.1 hp
      exact ⟨List.cons_prefix_cons.2 ⟨rfl, hbegins⟩, by rw [length_cons]; omega⟩
    · rintro ⟨hbegins, hlength⟩
      cases p with
      | nil => cases hlength
      | cons d p =>
        obtain ⟨rfl, hrest⟩ := List.cons_prefix_cons.1 hbegins
        rw [length_cons] at hlength
        exact ⟨p, ih.2 ⟨hrest, by omega⟩, rfl⟩
  | case4 c cs n hfits =>
    simp only [reduceCtorEq, false_iff]
    rintro ⟨hbegins, hlength⟩
    cases p with
    | nil => cases hlength
    | cons d p =>
      obtain ⟨rfl, -⟩ := List.cons_prefix_cons.1 hbegins
      rw [length_cons] at hlength
      omega

/-- **The boundaries of a text are the offsets at which its beginnings end.** -/
theorem isBoundary_encode_iff : isBoundary (encode cs) n = true ↔ ∃ p, p <+: cs ∧ length p = n := by
  simp only [← isSome_front?, Option.isSome_iff_exists, front?_eq_some_iff]

/-! ## The search -/

/-- **The search gives the last boundary up to the limit.** -/
theorem isGreatest_lastBoundary (bs : List UInt8) (n : Nat) :
    IsGreatest {k | k ≤ n ∧ isBoundary bs k = true} (lastBoundary bs n) := by
  fun_induction lastBoundary bs n with
  | case1 => exact ⟨⟨Nat.le_refl 0, isBoundary_zero bs⟩, fun k hk => hk.1⟩
  | case2 n h => exact ⟨⟨Nat.le_refl (n + 1), h⟩, fun k hk => hk.1⟩
  | case3 n h ih =>
    obtain ⟨⟨hle, hboundary⟩, hgreatest⟩ := ih
    refine ⟨⟨Nat.le_succ_of_le hle, hboundary⟩, fun k hk => ?_⟩
    have hne : k ≠ n + 1 := fun heq => h (heq ▸ hk.2)
    exact hgreatest ⟨Nat.le_of_lt_succ (Nat.lt_of_le_of_ne hk.1 hne), hk.2⟩

theorem length_le_lastBoundary (hp : p <+: cs) (hle : length p ≤ n) : length p ≤ lastBoundary (encode cs) n :=
  (isGreatest_lastBoundary (encode cs) n).2 ⟨hle, isBoundary_encode_iff.2 ⟨p, hp, rfl⟩⟩

/-- The search goes back over three bytes at most. -/
theorem min_le_lastBoundary_add (cs : List Char) (n : Nat) :
    min n (length cs) ≤ lastBoundary (encode cs) n + 3 := by
  by_cases hlong : length cs ≤ n
  · have := length_le_lastBoundary (List.prefix_refl cs) hlong
    omega
  · obtain ⟨a, c, b, rfl, hle, hlt⟩ := exists_of_lt_length (Nat.lt_of_not_le hlong)
    have := length_le_lastBoundary (List.prefix_append a (c :: b)) hle
    have := width_le c
    omega

end Utf8
end SearchTelemetry
