import SearchTelemetry.Text.Utf8
/-!
# Boundary — where a text may be cut

A text is cut at an offset into its bytes, and an offset inside a character cuts nothing off (`front?`).  The byte at an
offset tells whether it is one between characters (`isBoundary`): the bytes with which a character goes on, and no others,
are from 0x80 to 0xBF.  `lastBoundary` goes back from a limit to an offset at which the text can be cut
(`isSome_front?_lastBoundary`).
-/
namespace SearchTelemetry
namespace Utf8

/-- A byte with which a character goes on. -/
def isFurther (b : UInt8) : Bool :=
  0x80 ≤ b && b < 0xC0

/-- An offset in front of a character or at the end of the text. -/
def isBoundary (bs : List UInt8) (n : Nat) : Bool :=
  n == 0 ||
    match bs[n]? with
    | some b => !isFurther b
    | none => n == bs.length

/-- The last boundary up to `n`. -/
def lastBoundary (bs : List UInt8) : Nat → Nat
  | 0 => 0
  | n + 1 => if isBoundary bs (n + 1) then n + 1 else lastBoundary bs n

/-- The text in front of an offset, unless the offset is inside a character or behind the end. -/
def front? : List Char → Nat → Option (List Char)
  | _, 0 => some []
  | [], _ + 1 => none
  | c :: cs, n + 1 => if width c ≤ n + 1 then (front? cs (n + 1 - width c)).map (c :: ·) else none

/-! ## The byte at an offset -/

theorem isFurther_toUInt8 {n : Nat} (h : n < 256) : isFurther n.toUInt8 = (decide (0x80 ≤ n) && decide (n < 0xC0)) := by
  have hn : n.toUInt8.toNat = n := UInt8.toNat_ofNat_of_lt h
  simp [isFurther, UInt8.le_iff_toNat_le, UInt8.lt_iff_toNat_lt, hn]

/-- A character goes on with all of its bytes but the first. -/
theorem exists_encodeChar_eq_cons (c : Char) :
    ∃ b bs, encodeChar c = b :: bs ∧ isFurther b = false ∧ ∀ b' ∈ bs, isFurther b' = true := by
  have hfirst : ∀ n, n < 0x80 ∨ 0xC0 ≤ n → n < 256 → isFurther n.toUInt8 = false := fun n h hn => by
    rw [isFurther_toUInt8 hn]
    simp only [Bool.and_eq_false_iff, decide_eq_false_iff_not]
    omega
  have hfurther : ∀ n, isFurther (0x80 + n % 64).toUInt8 = true := fun n => by
    rw [isFurther_toUInt8 (by omega)]
    simp only [Bool.and_eq_true, decide_eq_true_eq]
    omega
  have hlt : c.toNat < 0x110000 := by
    rcases c.valid with h | h
    · exact Nat.lt_trans h (by decide)
    · exact h.2
  unfold encodeChar
  dsimp only
  generalize c.toNat = n at *
  repeat' split
  all_goals
    refine ⟨_, _, rfl, hfirst _ (by omega) (by omega), ?_⟩
    simp only [List.forall_mem_cons, hfurther, List.not_mem_nil, false_implies, implies_true, and_self]

@[simp] theorem isBoundary_zero (bs : List UInt8) : isBoundary bs 0 = true := rfl

theorem isBoundary_succ_nil (n : Nat) : isBoundary [] (n + 1) = false := rfl

/-- Bytes in front of a text only move its boundaries. -/
theorem isBoundary_append_encode (bs : List UInt8) (cs : List Char) (n : Nat) :
    isBoundary (bs ++ encode cs) (bs.length + n) = isBoundary (encode cs) n := by
  cases n with
  | zero =>
    cases cs with
    | nil => simp [isBoundary]
    | cons c cs =>
      obtain ⟨b, further, hbytes, hb, -⟩ := exists_encodeChar_eq_cons c
      simp [isBoundary, hbytes, hb]
  | succ n =>
    have hbyte : (bs ++ encode cs)[bs.length + (n + 1)]? = (encode cs)[n + 1]? := by
      rw [List.getElem?_append_right (by omega), Nat.add_sub_cancel_left]
    have hend : (bs.length + (n + 1) == (bs ++ encode cs).length) = (n + 1 == (encode cs).length) := by
      rw [Bool.eq_iff_iff, beq_iff_eq, beq_iff_eq, List.length_append, Nat.add_left_cancel_iff]
    simp only [isBoundary, hbyte, hend]
    simp

/-- No text is cut inside its first character. -/
theorem isBoundary_encode_cons_of_lt {c : Char} {n : Nat} (h : n + 1 < width c) (cs : List Char) :
    isBoundary (encode (c :: cs)) (n + 1) = false := by
  obtain ⟨b, further, hbytes, -, hfurther⟩ := exists_encodeChar_eq_cons c
  rw [← length_encodeChar, hbytes, List.length_cons] at h
  have hn : n < further.length := by omega
  simp [isBoundary, hbytes, List.getElem?_append_left, hn, hfurther _ (List.getElem_mem hn)]

/-! ## Cuts -/

/-- **There is a text in front of the boundaries and of no other offset.** -/
theorem isSome_front? (cs : List Char) (n : Nat) : (front? cs n).isSome = isBoundary (encode cs) n := by
  fun_induction front? cs n with
  | case1 cs => rw [isBoundary_zero, Option.isSome_some]
  | case2 n => rw [encode_nil, isBoundary_succ_nil, Option.isSome_none]
  | case3 c cs n hfits ih =>
    have hoffset : (encodeChar c).length + (n + 1 - width c) = n + 1 := by rw [length_encodeChar]; omega
    rw [Option.isSome_map, ih, ← isBoundary_append_encode (encodeChar c), hoffset, encode_cons]
  | case4 c cs n hfits => rw [isBoundary_encode_cons_of_lt (by omega), Option.isSome_none]

theorem isBoundary_lastBoundary (bs : List UInt8) (n : Nat) : isBoundary bs (lastBoundary bs n) = true := by
  fun_induction lastBoundary bs n with
  | case1 => rfl
  | case2 n h => exact h
  | case3 n h ih => exact ih

/-- A text can be cut where the search for a boundary ends. -/
theorem isSome_front?_lastBoundary (cs : List Char) (n : Nat) : (front? cs (lastBoundary (encode cs) n)).isSome = true := by
  rw [isSome_front?, isBoundary_lastBoundary]

/-- Inside a character there is no cut. -/
example : front? "日本".toList 4 = none ∧ lastBoundary (encode "日本".toList) 4 = 3 := by decide

end Utf8
end SearchTelemetry
