import SearchTelemetry.Text.Utf8
/-!
# Text.Utf8 — what is written is read back

The strict reader gives back every text that was written (`decode_encode`).  Only a character below U+0080 has a byte below
0x80 in its writing (`mem_encodeChar`), so that an ASCII mark in the bytes of a text is always the mark itself.
-/
namespace SearchTelemetry
namespace Utf8

/-! ## Bytes as numbers -/

theorem toNat_toUInt8 {n : Nat} (h : n < 256) : n.toUInt8.toNat = n :=
  UInt8.toNat_ofNat_of_lt h

theorem toNat_lt_or (c : Char) : c.toNat < 0xD800 ∨ (0xDFFF < c.toNat ∧ c.toNat < 0x110000) :=
  c.valid

theorem first_toUInt8 {n : Nat} (h : n < 256) : first n.toUInt8 =
    if n < 0x80 then .char (Char.ofNat n)
    else if n < 0xC2 then .bad
    else if n < 0xE0 then .more ⟨1, 0x80, 0xBF, n % 32⟩
    else if n < 0xF0 then .more ⟨2, if n = 0xE0 then 0xA0 else 0x80, if n = 0xED then 0x9F else 0xBF, n % 16⟩
    else if n < 0xF5 then .more ⟨3, if n = 0xF0 then 0x90 else 0x80, if n = 0xF4 then 0x8F else 0xBF, n % 8⟩
    else .bad := by
  simp only [first, UInt8.lt_iff_toNat_lt, ← UInt8.toNat_inj, UInt8.reduceToNat, toNat_toUInt8 h]

theorem next_last {n : Nat} {low high : UInt8} (code : Nat) (hl : low.toNat ≤ n) (hh : n ≤ high.toNat) :
    next ⟨1, low, high, code⟩ n.toUInt8 = .char (Char.ofNat (code * 64 + n % 64)) := by
  have hn := toNat_toUInt8 (Nat.lt_of_le_of_lt hh high.toNat_lt)
  simp [next, UInt8.le_iff_toNat_le, hn, hl, hh]

theorem next_more {n : Nat} {low high : UInt8} (owed code : Nat) (hl : low.toNat ≤ n) (hh : n ≤ high.toNat) :
    next ⟨owed + 2, low, high, code⟩ n.toUInt8 = .more ⟨owed + 1, 0x80, 0xBF, code * 64 + n % 64⟩ := by
  have hn := toNat_toUInt8 (Nat.lt_of_le_of_lt hh high.toNat_lt)
  simp [next, UInt8.le_iff_toNat_le, hn, hl, hh]

/-- The last byte of every character of two bytes or more. -/
theorem next_tail (n code : Nat) :
    next ⟨1, 0x80, 0xBF, code⟩ (0x80 + n % 64).toUInt8 = .char (Char.ofNat (code * 64 + n % 64)) := by
  rw [next_last code (by simp only [UInt8.reduceToNat]; omega) (by simp only [UInt8.reduceToNat]; omega)]
  congr 3
  omega

/-- A byte between the second and the last one. -/
theorem next_middle (n owed code : Nat) :
    next ⟨owed + 2, 0x80, 0xBF, code⟩ (0x80 + n % 64).toUInt8 = .more ⟨owed + 1, 0x80, 0xBF, code * 64 + n % 64⟩ := by
  rw [next_more owed code (by simp only [UInt8.reduceToNat]; omega) (by simp only [UInt8.reduceToNat]; omega)]
  congr 3
  omega

/-! ## Reading what was written -/

theorem decodeLoop_encodeChar (c : Char) (acc : List Char) (rest : List UInt8) :
    decodeLoop none acc (encodeChar c ++ rest) = decodeLoop none (c :: acc) rest := by
  have hv := toNat_lt_or c
  have hc : ∀ n, n = c.toNat → Char.ofNat n = c := fun n hn => by rw [hn, Char.ofNat_toNat]
  unfold encodeChar
  dsimp only
  generalize c.toNat = n at *
  by_cases h1 : n < 0x80
  · simp only [if_pos h1, List.singleton_append, decodeLoop]
    rw [first_toUInt8 (by omega), if_pos h1, hc n rfl]
  by_cases h2 : n < 0x800
  · have hf : first (0xC0 + n / 64).toUInt8 = .more ⟨1, 0x80, 0xBF, (0xC0 + n / 64) % 32⟩ := by
      rw [first_toUInt8 (by omega), if_neg (by omega), if_neg (by omega), if_pos (by omega)]
    simp only [if_neg h1, if_pos h2, List.cons_append, List.nil_append, decodeLoop, hf, next_tail]
    rw [hc _ (by omega)]
  by_cases h3 : n < 0x10000
  · let low : UInt8 := if 0xE0 + n / 4096 = 0xE0 then 0xA0 else 0x80
    let high : UInt8 := if 0xE0 + n / 4096 = 0xED then 0x9F else 0xBF
    have hf : first (0xE0 + n / 4096).toUInt8 = .more ⟨2, low, high, (0xE0 + n / 4096) % 16⟩ := by
      rw [first_toUInt8 (by omega), if_neg (by omega), if_neg (by omega), if_neg (by omega), if_pos (by omega)]
    -- the second byte keeps out over-long forms and surrogates, and no character has those
    have hlow : low.toNat ≤ 0x80 + n / 64 % 64 := by
      simp only [low]; split <;> simp only [UInt8.reduceToNat] <;> omega
    have hhigh : 0x80 + n / 64 % 64 ≤ high.toNat := by
      simp only [high]; split <;> simp only [UInt8.reduceToNat] <;> omega
    simp only [if_neg h1, if_neg h2, if_pos h3, List.cons_append, List.nil_append, decodeLoop, hf,
      next_more 0 _ hlow hhigh, Nat.reduceAdd, next_tail]
    rw [hc _ (by omega)]
  · let low : UInt8 := if 0xF0 + n / 262144 = 0xF0 then 0x90 else 0x80
    let high : UInt8 := if 0xF0 + n / 262144 = 0xF4 then 0x8F else 0xBF
    have hf : first (0xF0 + n / 262144).toUInt8 = .more ⟨3, low, high, (0xF0 + n / 262144) % 8⟩ := by
      rw [first_toUInt8 (by omega), if_neg (by omega), if_neg (by omega), if_neg (by omega), if_neg (by omega),
        if_pos (by omega)]
    -- here it keeps out over-long forms and numbers past the last code point
    have hlow : low.toNat ≤ 0x80 + n / 4096 % 64 := by
      simp only [low]; split <;> simp only [UInt8.reduceToNat] <;> omega
    have hhigh : 0x80 + n / 4096 % 64 ≤ high.toNat := by
      simp only [high]; split <;> simp only [UInt8.reduceToNat] <;> omega
    simp only [if_neg h1, if_neg h2, if_neg h3, List.cons_append, List.nil_append, decodeLoop, hf,
      next_more 1 _ hlow hhigh, Nat.reduceAdd, next_middle _ 0, next_tail]
    rw [hc _ (by omega)]

theorem decodeLoop_encode : ∀ (cs acc : List Char), decodeLoop none acc (encode cs) = some (acc.reverse ++ cs)
  | [], acc => by simp [decodeLoop]
  | c :: cs, acc => by
    rw [encode_cons, decodeLoop_encodeChar, decodeLoop_encode cs (c :: acc)]
    simp

/-- **What is written is read back.** -/
theorem decode_encode (cs : List Char) : decode (encode cs) = some cs :=
  decodeLoop_encode cs []

theorem string?_encode (cs : List Char) : string? (encode cs) = some (String.ofList cs) := by
  rw [string?, decode_encode]
  rfl

/-! ## Marks in the bytes of a text -/

theorem encodeChar_of_lt {c : Char} (h : c.toNat < 0x80) : encodeChar c = [c.toNat.toUInt8] := by
  simp [encodeChar, h]

/-- The bytes of a character past U+007F are no ASCII. -/
theorem mem_encodeChar {c : Char} (h : ¬c.toNat < 0x80) {b : UInt8} (hb : b ∈ encodeChar c) : 0x80 ≤ b.toNat := by
  have hv := toNat_lt_or c
  unfold encodeChar at hb
  dsimp only at hb
  generalize c.toNat = n at *
  rw [if_neg h] at hb
  have hge : ∀ m, 0x80 ≤ m → m < 256 → 0x80 ≤ m.toUInt8.toNat := fun m hm hm' => by rwa [toNat_toUInt8 hm']
  split at hb
  · simp only [List.mem_cons, List.not_mem_nil, or_false] at hb
    rcases hb with rfl | rfl <;> exact hge _ (by omega) (by omega)
  split at hb
  · simp only [List.mem_cons, List.not_mem_nil, or_false] at hb
    rcases hb with rfl | rfl | rfl <;> exact hge _ (by omega) (by omega)
  · simp only [List.mem_cons, List.not_mem_nil, or_false] at hb
    rcases hb with rfl | rfl | rfl | rfl <;> exact hge _ (by omega) (by omega)

/-- Text without controls has bytes without controls. -/
theorem le_of_mem_encode {cs : List Char} (h : ∀ c ∈ cs, 0x20 ≤ c.toNat) {b : UInt8} (hb : b ∈ encode cs) :
    0x20 ≤ b.toNat := by
  obtain ⟨c, hc, hb⟩ := List.mem_flatMap.1 hb
  have := h c hc
  by_cases hlt : c.toNat < 0x80
  · rw [encodeChar_of_lt hlt, List.mem_singleton] at hb
    rw [hb, toNat_toUInt8 (by omega)]
    exact this
  · have := mem_encodeChar hlt hb
    omega

end Utf8
end SearchTelemetry
