import SearchTelemetry.Proofs.Text.Lossy
/-!
# Text.Decoded — bytes that are a text are the bytes of that text

No two byte strings are read as one text: what is read strictly is written as the bytes that were read (`encode_of_decode`),
and so is what is read lossily, unless something had to be replaced (`encode_of_lossyChars`).
-/
namespace SearchTelemetry
namespace Utf8

variable {b : UInt8} {bs : List UInt8} {c : Char} {cs : List Char} {p q : Partial}

/-! ## One character -/

theorem encodeChar_of_first (h : first b = .char c) : encodeChar c = [b] := by
  have hb : b.toNat.toUInt8 = b := UInt8.ofNat_toNat
  unfold first at h
  repeat' split at h
  all_goals cases h
  rename_i hlt
  have hlt : b.toNat < 0x80 := UInt8.lt_iff_toNat_lt.1 hlt
  have hchar : (Char.ofNat b.toNat).toNat = b.toNat := toNat_ofNat (.inl (by omega))
  rw [encodeChar_of_lt (by rw [hchar]; exact hlt), hchar, hb]

/-- What a further byte has to be, and what it adds. -/
theorem next_cases (p : Partial) (b : UInt8) :
    next p b = .bad ∨ (p.low.toNat ≤ b.toNat ∧ b.toNat ≤ p.high.toNat ∧
      next p b = if p.owed ≤ 1 then .char (Char.ofNat (p.code * 64 + b.toNat % 64))
        else .more ⟨p.owed - 1, 0x80, 0xBF, p.code * 64 + b.toNat % 64⟩) := by
  by_cases h : p.low ≤ b ∧ b ≤ p.high
  · exact .inr ⟨UInt8.le_iff_toNat_le.1 h.1, UInt8.le_iff_toNat_le.1 h.2, if_pos h⟩
  · exact .inl (if_neg h)

/-- These bytes make a character begun into a whole one. -/
def Partial.Completes (c : Char) : Partial → List UInt8 → Prop
  | _, [] => False
  | p, b :: bs => (next p b = .char c ∧ bs = []) ∨ ∃ q, next p b = .more q ∧ q.Completes c bs

theorem Partial.Completes.last {low high : UInt8} {code : Nat} (h : Partial.Completes c ⟨1, low, high, code⟩ bs) :
    ∃ b, bs = [b] ∧ low.toNat ≤ b.toNat ∧ b.toNat ≤ high.toNat ∧ c = Char.ofNat (code * 64 + b.toNat % 64) := by
  cases bs with
  | nil => exact h.elim
  | cons b bs =>
    rcases next_cases ⟨1, low, high, code⟩ b with hbad | ⟨hl, hh, heq⟩
    · rcases h with ⟨hc, -⟩ | ⟨q, hq, -⟩
      · cases hbad.symm.trans hc
      · cases hbad.symm.trans hq
    · rcases h with ⟨hc, rfl⟩ | ⟨q, hq, -⟩
      · cases heq.symm.trans hc
        exact ⟨b, rfl, hl, hh, rfl⟩
      · cases heq.symm.trans hq

theorem Partial.Completes.more {owed code : Nat} {low high : UInt8}
    (h : Partial.Completes c ⟨owed + 2, low, high, code⟩ bs) :
    ∃ b bs', bs = b :: bs' ∧ low.toNat ≤ b.toNat ∧ b.toNat ≤ high.toNat ∧
      Partial.Completes c ⟨owed + 1, 0x80, 0xBF, code * 64 + b.toNat % 64⟩ bs' := by
  cases bs with
  | nil => exact h.elim
  | cons b bs =>
    rcases next_cases ⟨owed + 2, low, high, code⟩ b with hbad | ⟨hl, hh, heq⟩
    · rcases h with ⟨hc, -⟩ | ⟨q, hq, -⟩
      · cases hbad.symm.trans hc
      · cases hbad.symm.trans hq
    · rcases h with ⟨hc, -⟩ | ⟨q, hq, hbs⟩
      · cases heq.symm.trans hc
      · cases heq.symm.trans hq
        exact ⟨b, bs, rfl, hl, hh, hbs⟩

theorem toUInt8_eq {n : Nat} (h : n = b.toNat) : n.toUInt8 = b := by
  rw [h]
  exact UInt8.ofNat_toNat

/-- A character is written as the bytes that it was read from. -/
theorem encodeChar_of_completes (h : first b = .more p) (hbs : p.Completes c bs) : encodeChar c = b :: bs := by
  have hn := b.toNat_lt
  have hb : b.toNat.toUInt8 = b := UInt8.ofNat_toNat
  rw [← hb, first_toUInt8 (by omega)] at h
  split at h
  · cases h
  split at h
  · cases h
  split at h
  · cases h
    obtain ⟨b2, rfl, hl, hh, rfl⟩ := hbs.last
    simp only [UInt8.reduceToNat] at hl hh
    have hchar : (Char.ofNat (b.toNat % 32 * 64 + b2.toNat % 64)).toNat = b.toNat % 32 * 64 + b2.toNat % 64 :=
      toNat_ofNat (.inl (by omega))
    simp only [encodeChar, hchar]
    rw [if_neg (by omega), if_pos (by omega), toUInt8_eq (b := b) (by omega), toUInt8_eq (b := b2) (by omega)]
  -- the second byte's range keeps out over-long forms, surrogates and numbers past the last code point
  split at h
  · cases h
    obtain ⟨b2, _, rfl, hl, hh, hbs⟩ := hbs.more
    obtain ⟨b3, rfl, hl3, hh3, rfl⟩ := hbs.last
    simp only [UInt8.reduceToNat] at hl3 hh3
    let n := (b.toNat % 16 * 64 + b2.toNat % 64) * 64 + b3.toNat % 64
    have hrange : 0x80 ≤ b2.toNat ∧ b2.toNat ≤ 0xBF ∧ 0x800 ≤ n ∧ (n < 0xD800 ∨ 0xDFFF < n ∧ n < 0x110000) := by
      split at hl <;> split at hh <;> simp only [UInt8.reduceToNat] at hl hh <;> omega
    have hchar : (Char.ofNat n).toNat = n := toNat_ofNat hrange.2.2.2
    simp only [encodeChar]
    rw [hchar, if_neg (by omega), if_neg (by omega), if_pos (by omega), toUInt8_eq (b := b) (by omega),
      toUInt8_eq (b := b2) (by omega), toUInt8_eq (b := b3) (by omega)]
  split at h
  · cases h
    obtain ⟨b2, _, rfl, hl, hh, hbs⟩ := hbs.more
    obtain ⟨b3, _, rfl, hl3, hh3, hbs⟩ := hbs.more
    obtain ⟨b4, rfl, hl4, hh4, rfl⟩ := hbs.last
    simp only [UInt8.reduceToNat] at hl3 hh3 hl4 hh4
    let n := ((b.toNat % 8 * 64 + b2.toNat % 64) * 64 + b3.toNat % 64) * 64 + b4.toNat % 64
    have hrange : 0x80 ≤ b2.toNat ∧ b2.toNat ≤ 0xBF ∧ 0x10000 ≤ n ∧ n < 0x110000 := by
      split at hl <;> split at hh <;> simp only [UInt8.reduceToNat] at hl hh <;> omega
    have hchar : (Char.ofNat n).toNat = n := toNat_ofNat (.inr ⟨by omega, hrange.2.2.2⟩)
    simp only [encodeChar]
    rw [hchar, if_neg (by omega), if_neg (by omega), if_neg (by omega), toUInt8_eq (b := b) (by omega),
      toUInt8_eq (b := b2) (by omega), toUInt8_eq (b := b3) (by omega), toUInt8_eq (b := b4) (by omega)]
  · cases h

/-! ## Texts -/

/-- The strict reader's loop: what it gives has the bytes that are left, and in front of them those of the character begun. -/
theorem exists_of_decodeLoop {state : Option Partial} {acc : List Char} (front : List UInt8)
    (hnone : state = none → front = [])
    (hsome : ∀ p, state = some p → ∀ c bs, p.Completes c bs → encodeChar c = front ++ bs)
    (h : decodeLoop state acc bs = some cs) : ∃ behind, cs = acc.reverse ++ behind ∧ encode behind = front ++ bs := by
  fun_induction decodeLoop state acc bs generalizing front with
  | case1 acc =>
    obtain rfl := hnone rfl
    exact ⟨[], by rw [← Option.some.inj h, List.append_nil], rfl⟩
  | case2 p acc => cases h
  | case3 acc b bs c hb ih =>
    obtain rfl := hnone rfl
    obtain ⟨behind, rfl, hbehind⟩ := ih [] (fun _ => rfl) (by rintro _ ⟨⟩) h
    refine ⟨c :: behind, by simp, ?_⟩
    rw [encode_cons, hbehind, encodeChar_of_first hb]
    rfl
  | case4 acc b bs p hb ih =>
    obtain rfl := hnone rfl
    refine ih [b] (fun h => by cases h) ?_ h
    rintro _ ⟨⟩ c bs hbs
    exact encodeChar_of_completes hb hbs
  | case5 acc b bs hb => cases h
  | case6 p acc b bs c hb ih =>
    obtain ⟨behind, rfl, hbehind⟩ := ih [] (fun _ => rfl) (by rintro _ ⟨⟩) h
    refine ⟨c :: behind, by simp, ?_⟩
    rw [encode_cons, hbehind, hsome p rfl c [b] (.inl ⟨hb, rfl⟩), List.append_assoc]
    rfl
  | case7 p acc b bs q hb ih =>
    have hlonger : ∀ q', some q = some q' → ∀ c bs, q'.Completes c bs → encodeChar c = front ++ [b] ++ bs := by
      rintro _ ⟨⟩ c bs hbs
      rw [hsome p rfl c (b :: bs) (.inr ⟨q, hb, hbs⟩), List.append_assoc]
      rfl
    obtain ⟨behind, rfl, hbehind⟩ := ih (front ++ [b]) (fun h => by cases h) hlonger h
    exact ⟨behind, rfl, by rw [hbehind, List.append_assoc]; rfl⟩
  | case8 p acc b bs hb => cases h

theorem exists_of_decodeLoop_none {acc : List Char} (h : decodeLoop none acc bs = some cs) :
    ∃ behind, cs = acc.reverse ++ behind ∧ encode behind = bs :=
  exists_of_decodeLoop [] (fun _ => rfl) (by rintro _ ⟨⟩) h

/-- **What is read is written as the bytes that were read.** -/
theorem encode_of_decode (h : decode bs = some cs) : encode cs = bs := by
  obtain ⟨behind, rfl, hbehind⟩ := exists_of_decodeLoop_none h
  exact hbehind

theorem decode_eq_some : decode bs = some cs ↔ bs = encode cs :=
  ⟨fun h => (encode_of_decode h).symm, fun h => h ▸ decode_encode cs⟩

theorem encode_inj {cs' : List Char} (h : encode cs = encode cs') : cs = cs' :=
  Option.some.inj ((decode_encode cs).symm.trans (decode_eq_some.2 h))

theorem decodeLoop_encode_append (acc : List Char) (bs : List UInt8) :
    decodeLoop none acc (encode cs ++ bs) = decodeLoop none (cs.reverse ++ acc) bs := by
  induction cs generalizing acc with
  | nil => rfl
  | cons c cs ih =>
    rw [encode_cons, List.append_assoc, decodeLoop_encodeChar, ih, List.reverse_cons, List.append_assoc]
    rfl

/-- A text that begins with the bytes of another begins with that text. -/
theorem exists_of_encode_eq_append {front : List Char} (h : encode cs = encode front ++ bs) :
    ∃ behind, cs = front ++ behind ∧ bs = encode behind := by
  have hread : decodeLoop none front.reverse bs = some cs := by
    have heq : decodeLoop none [] (encode front ++ bs) = _ := decodeLoop_encode_append [] bs
    rw [List.append_nil] at heq
    rw [← heq, ← h]
    exact decode_encode cs
  obtain ⟨behind, rfl, hbehind⟩ := exists_of_decodeLoop_none hread
  exact ⟨behind, by rw [List.reverse_reverse], hbehind.symm⟩

theorem mem_lossyLoop {state : Option Partial} {acc : List Char} (hc : c ∈ acc) : c ∈ lossyLoop state acc bs := by
  fun_induction lossyLoop state acc bs with
  | case1 acc => exact List.mem_reverse.2 hc
  | case2 p acc => exact List.mem_reverse.2 (List.mem_cons_of_mem _ hc)
  | case3 acc b bs c' hb ih => exact ih (List.mem_cons_of_mem _ hc)
  | case4 acc b bs q hb ih => exact ih hc
  | case5 acc b bs hb ih => exact ih (List.mem_cons_of_mem _ hc)
  | case6 p acc b bs c' hb ih => exact ih (List.mem_cons_of_mem _ hc)
  | case7 p acc b bs q hb ih => exact ih hc
  | case8 p acc b bs hb c' hf ih => exact ih (List.mem_cons_of_mem _ (List.mem_cons_of_mem _ hc))
  | case9 p acc b bs hb q hf ih => exact ih (List.mem_cons_of_mem _ hc)
  | case10 p acc b bs hb hf ih => exact ih (List.mem_cons_of_mem _ (List.mem_cons_of_mem _ hc))

theorem decodeLoop_of_lossyLoop {state : Option Partial} {acc : List Char} (h : replacement ∉ lossyLoop state acc bs) :
    decodeLoop state acc bs = some (lossyLoop state acc bs) := by
  fun_induction lossyLoop state acc bs with
  | case1 acc => rfl
  | case2 p acc => exact absurd (List.mem_reverse.2 List.mem_cons_self) h
  | case3 acc b bs c' hb ih => simpa only [decodeLoop, hb] using ih h
  | case4 acc b bs q hb ih => simpa only [decodeLoop, hb] using ih h
  | case5 acc b bs hb ih => exact absurd (mem_lossyLoop List.mem_cons_self) h
  | case6 p acc b bs c' hb ih => simpa only [decodeLoop, hb] using ih h
  | case7 p acc b bs q hb ih => simpa only [decodeLoop, hb] using ih h
  | case8 p acc b bs hb c' hf ih => exact absurd (mem_lossyLoop (List.mem_cons_of_mem _ List.mem_cons_self)) h
  | case9 p acc b bs hb q hf ih => exact absurd (mem_lossyLoop List.mem_cons_self) h
  | case10 p acc b bs hb hf ih => exact absurd (mem_lossyLoop List.mem_cons_self) h

/-- **What is read lossily is written as the bytes that were read**, if nothing had to be replaced. -/
theorem encode_of_lossyChars (h : replacement ∉ lossyChars bs) : encode (lossyChars bs) = bs :=
  encode_of_decode (decodeLoop_of_lossyLoop h)

theorem lossyChars_encode (cs : List Char) : lossyChars (encode cs) = cs :=
  lossyLoop_of_decodeLoop (decodeLoop_encode cs [])

end Utf8
end SearchTelemetry
