import SearchTelemetry.Proofs.Text.Decoded
/-!
# Text.Cut — a text whose bytes are cut short

The first `n` bytes of a text, read lossily, are the characters that end by then, with U+FFFD for a character that has begun
and is not whole (`lossyChars_take`).
-/
namespace SearchTelemetry
namespace Utf8

variable {bs front rest : List UInt8} {c : Char} {cs acc : List Char} {p : Partial}

/-! ## Lengths -/

@[simp] theorem length_nil : length [] = 0 := rfl

@[simp] theorem length_cons (c : Char) (cs : List Char) : length (c :: cs) = width c + length cs := rfl

@[simp] theorem length_append (a b : List Char) : length (a ++ b) = length a + length b := by
  simp [← length_encode]

theorem width_le (c : Char) : width c ≤ 4 := by
  unfold width
  repeat' split
  all_goals omega

/-- The character in whose bytes a text is cut, or behind which. -/
theorem exists_of_lt_length {n : Nat} (h : n < length cs) :
    ∃ a c b, cs = a ++ c :: b ∧ length a ≤ n ∧ n < length a + width c := by
  induction cs generalizing n with
  | nil => cases h
  | cons c cs ih =>
    rw [length_cons] at h
    by_cases hc : n < width c
    · exact ⟨[], c, cs, rfl, by simp, by simpa using hc⟩
    · obtain ⟨a, d, b, rfl, hle, hlt⟩ := ih (n := n - width c) (by omega)
      exact ⟨c :: a, d, b, rfl, by rw [length_cons]; omega, by rw [length_cons]; omega⟩

/-! ## The machine on the bytes of one character -/

theorem exists_completes_of_decodeLoop (h : decodeLoop (some p) acc bs = some cs) :
    ∃ c front behind, p.Completes c front ∧ bs = front ++ encode behind ∧ cs = acc.reverse ++ c :: behind := by
  induction bs generalizing p with
  | nil => cases h
  | cons b bs ih =>
    simp only [decodeLoop] at h
    cases hb : next p b with
    | char c =>
      rw [hb] at h
      obtain ⟨behind, rfl, rfl⟩ := exists_of_decodeLoop_none h
      exact ⟨c, [b], behind, .inl ⟨hb, rfl⟩, rfl, by simp⟩
    | more q =>
      rw [hb] at h
      obtain ⟨c, front, behind, hc, rfl, rfl⟩ := ih h
      exact ⟨c, b :: front, behind, .inr ⟨q, hb, hc⟩, rfl, rfl⟩
    | bad =>
      rw [hb] at h
      cases h

theorem encodeChar_cases (c : Char) :
    (∃ b, encodeChar c = [b] ∧ first b = .char c) ∨
      ∃ b bs p, encodeChar c = b :: bs ∧ first b = .more p ∧ p.Completes c bs := by
  have hread : decodeLoop none [] (encodeChar c) = some [c] := by
    simpa [decodeLoop] using decodeLoop_encodeChar c [] []
  cases hbytes : encodeChar c with
  | nil => rw [hbytes] at hread; cases hread
  | cons b bs =>
    rw [hbytes] at hread
    simp only [decodeLoop] at hread
    cases hb : first b with
    | char d =>
      rw [hb] at hread
      obtain ⟨behind, hd, rfl⟩ := exists_of_decodeLoop_none hread
      obtain ⟨rfl, rfl⟩ : c = d ∧ behind = [] := by simpa using hd
      exact .inl ⟨b, rfl, hb⟩
    | more p =>
      rw [hb] at hread
      obtain ⟨d, front, behind, hd, rfl, heq⟩ := exists_completes_of_decodeLoop hread
      obtain ⟨rfl, rfl⟩ : c = d ∧ behind = [] := by simpa using heq
      exact .inr ⟨b, _, p, rfl, hb, by simpa using hd⟩
    | bad =>
      rw [hb] at hread
      cases hread

theorem lossyLoop_of_completes (h : p.Completes c front) :
    lossyLoop (some p) acc (front ++ rest) = lossyLoop none (c :: acc) rest := by
  induction front generalizing p with
  | nil => exact h.elim
  | cons b front ih =>
    rcases h with ⟨hb, rfl⟩ | ⟨q, hb, hq⟩
    · simp [lossyLoop, hb]
    · simpa [lossyLoop, hb] using ih hq

/-- The bytes of a character begun, up to some that it still lacks. -/
theorem lossyLoop_of_completes_append (h : p.Completes c (front ++ rest)) (hrest : rest ≠ []) :
    lossyLoop (some p) acc front = acc.reverse ++ [replacement] := by
  induction front generalizing p with
  | nil => simp [lossyLoop]
  | cons b front ih =>
    rcases h with ⟨-, hnil⟩ | ⟨q, hb, hq⟩
    · simp [hrest] at hnil
    · simpa [lossyLoop, hb] using ih hq

theorem lossyLoop_encodeChar (c : Char) (acc : List Char) (rest : List UInt8) :
    lossyLoop none acc (encodeChar c ++ rest) = lossyLoop none (c :: acc) rest := by
  rcases encodeChar_cases c with ⟨b, hbytes, hb⟩ | ⟨b, bs, p, hbytes, hb, hp⟩
  · simp [hbytes, lossyLoop, hb]
  · simpa [hbytes, lossyLoop, hb] using lossyLoop_of_completes hp

theorem lossyLoop_of_encodeChar_eq (h : encodeChar c = front ++ rest) (hfront : front ≠ []) (hrest : rest ≠ []) :
    lossyLoop none acc front = acc.reverse ++ [replacement] := by
  obtain ⟨b, front, rfl⟩ := List.exists_cons_of_ne_nil hfront
  rcases encodeChar_cases c with ⟨b', hbytes, hb⟩ | ⟨b', bs, p, hbytes, hb, hp⟩
  · rw [hbytes, List.cons_append, List.cons.injEq] at h
    exact absurd (List.append_eq_nil_iff.1 h.2.symm).2 hrest
  · rw [hbytes, List.cons_append, List.cons.injEq] at h
    obtain ⟨rfl, rfl⟩ := h
    simpa [lossyLoop, hb] using lossyLoop_of_completes_append hp hrest

/-! ## Texts -/

theorem lossyLoop_encode_append (cs acc : List Char) (bs : List UInt8) :
    lossyLoop none acc (encode cs ++ bs) = lossyLoop none (cs.reverse ++ acc) bs := by
  induction cs generalizing acc with
  | nil => rfl
  | cons c cs ih =>
    rw [encode_cons, List.append_assoc, lossyLoop_encodeChar, ih]
    simp

theorem lossyChars_encode_append (cs : List Char) (h : encodeChar c = front ++ rest) (hfront : front ≠ [])
    (hrest : rest ≠ []) : lossyChars (encode cs ++ front) = cs ++ [replacement] := by
  rw [lossyChars, lossyLoop_encode_append, lossyLoop_of_encodeChar_eq h hfront hrest]
  simp

/-- **A text cut short, read lossily.** -/
theorem lossyChars_take {a b : List Char} {n : Nat} (hle : length a ≤ n) (hlt : n < length a + width c) :
    lossyChars ((encode (a ++ c :: b)).take n) = if length a = n then a else a ++ [replacement] := by
  have hfront : (encode a).take n = encode a := List.take_of_length_le (by rw [length_encode]; exact hle)
  have hbehind : n - length a - (encodeChar c).length = 0 := by rw [length_encodeChar]; omega
  have htake : (encode (a ++ c :: b)).take n = encode a ++ (encodeChar c).take (n - length a) := by
    rw [encode_append, encode_cons, List.take_append, hfront, length_encode, List.take_append, hbehind, List.take_zero,
      List.append_nil]
  rw [htake]
  by_cases h : length a = n
  · rw [if_pos h, h, Nat.sub_self, List.take_zero, List.append_nil, lossyChars_encode]
  · have hwidth := length_encodeChar c
    rw [if_neg h, lossyChars_encode_append a (List.take_append_drop (n - length a) (encodeChar c)).symm]
    · exact List.ne_nil_of_length_pos (by rw [List.length_take]; omega)
    · exact List.ne_nil_of_length_pos (by rw [List.length_drop]; omega)

end Utf8
end SearchTelemetry
