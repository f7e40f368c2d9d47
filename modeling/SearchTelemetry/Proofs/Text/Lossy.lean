import SearchTelemetry.Proofs.Text.Utf8
/-!
# Text.Lossy — text out of any bytes

Where bytes are a text, the lossy reader gives that text (`lossy_bytes`).  Whatever they are, no character below U+0080 is
in what it gives that is not among the bytes (`mem_bytes_lossy`): a character that takes more than one byte is past U+007F,
and so is what stands for bytes that are none.
-/
namespace SearchTelemetry
namespace Utf8

/-! ## Bytes of a text -/

theorem lossyLoop_of_decodeLoop {p : Option Partial} {acc cs : List Char} {bs : List UInt8}
    (h : decodeLoop p acc bs = some cs) : lossyLoop p acc bs = cs := by
  fun_induction decodeLoop p acc bs with
  | case1 acc => simpa [lossyLoop] using h
  | case2 p acc => cases h
  | case3 acc b bs c hb ih => simpa [lossyLoop, hb] using ih h
  | case4 acc b bs p hb ih => simpa [lossyLoop, hb] using ih h
  | case5 acc b bs hb => cases h
  | case6 p acc b bs c hb ih => simpa [lossyLoop, hb] using ih h
  | case7 p acc b bs q hb ih => simpa [lossyLoop, hb] using ih h
  | case8 p acc b bs hb => cases h

/-- **The lossy reader gives back what was written.** -/
theorem lossy_bytes (s : String) : lossy (bytes s) = s := by
  have h := lossyLoop_of_decodeLoop (decodeLoop_encode s.toList [])
  rw [lossy, lossyChars, bytes, h, List.reverse_nil, List.nil_append, String.ofList_toList]

/-! ## Any bytes -/

theorem toNat_ofNat {n : Nat} (h : n.isValidChar) : (Char.ofNat n).toNat = n := by
  have hchar : Char.ofNat n = Char.ofNatAux n h := dif_pos h
  rw [hchar]
  rfl

/-- Bits that six more bits make into a character past U+007F, and into no surrogate. -/
def IsWide (code : Nat) : Prop :=
  0x80 ≤ code * 64 ∧ (code * 64 < 0xD800 ∨ 0xE000 ≤ code * 64 ∧ code * 64 < 0x110000)

theorem le_toNat_ofNat_of_isWide {code : Nat} (h : IsWide code) (n : Nat) :
    0x80 ≤ (Char.ofNat (code * 64 + n % 64)).toNat := by
  obtain ⟨hl, hh⟩ := h
  have hv : (code * 64 + n % 64).isValidChar := by
    rcases hh with hh | ⟨hh, hh'⟩
    · exact .inl (by omega)
    · exact .inr ⟨by omega, by omega⟩
  rw [toNat_ofNat hv]
  omega

/-- A character begun that can only become one past U+007F. -/
def Partial.Wide : Partial → Prop
  | ⟨1, _, _, code⟩ => IsWide code
  | ⟨2, low, high, code⟩ => ∀ b : UInt8, low ≤ b → b ≤ high → IsWide (code * 64 + b.toNat % 64)
  | ⟨3, low, high, code⟩ => ∀ b : UInt8, low ≤ b → b ≤ high →
    0x10000 ≤ (code * 64 + b.toNat % 64) * 4096 ∧ (code * 64 + b.toNat % 64) * 4096 < 0x110000
  | _ => False

theorem wide_of_first {b : UInt8} {p : Partial} (h : first b = .more p) : p.Wide := by
  have hb : b.toNat.toUInt8 = b := UInt8.ofNat_toNat
  have hn := b.toNat_lt
  rw [← hb, first_toUInt8 (by omega)] at h
  generalize b.toNat = n at h hn
  split at h
  · cases h
  split at h
  · cases h
  split at h
  · cases h
    exact ⟨by omega, .inl (by omega)⟩
  -- the second byte's range keeps out over-long forms, surrogates and numbers past the last code point
  split at h
  · cases h
    intro b hl hh
    rw [UInt8.le_iff_toNat_le] at hl hh
    split at hl <;> split at hh <;> simp only [UInt8.reduceToNat] at hl hh <;> unfold IsWide <;> omega
  split at h
  · cases h
    intro b hl hh
    rw [UInt8.le_iff_toNat_le] at hl hh
    split at hl <;> split at hh <;> simp only [UInt8.reduceToNat] at hl hh <;> omega
  · cases h

theorem wide_of_next {p : Partial} (hp : p.Wide) {b : UInt8} :
    (∀ c, next p b = .char c → 0x80 ≤ c.toNat) ∧ ∀ q, next p b = .more q → q.Wide := by
  by_cases hb : p.low ≤ b ∧ b ≤ p.high
  · match p, hp with
    | ⟨1, low, high, code⟩, hp =>
      simp only [next, if_pos hb]
      constructor
      · intro c hc
        cases hc
        exact le_toNat_ofNat_of_isWide hp _
      · intro q hq
        cases hq
    | ⟨2, low, high, code⟩, hp =>
      simp only [next, if_pos hb]
      constructor
      · intro c hc
        cases hc
      · intro q hq
        cases hq
        exact hp b hb.1 hb.2
    | ⟨3, low, high, code⟩, hp =>
      simp only [next, if_pos hb]
      constructor
      · intro c hc
        cases hc
      · intro q hq
        cases hq
        intro b' _ _
        have hcode := hp b hb.1 hb.2
        unfold IsWide
        omega
  · simp only [next, if_neg hb]
    constructor
    · intro c hc
      cases hc
    · intro q hq
      cases hq

/-- A character past U+007F, or one that is a byte among these. -/
def StandsIn (bs : List UInt8) (c : Char) : Prop :=
  0x80 ≤ c.toNat ∨ c.toNat.toUInt8 ∈ bs

theorem standsIn_of_first {bs : List UInt8} {b : UInt8} (hb : b ∈ bs) {c : Char} (h : first b = .char c) :
    StandsIn bs c := by
  unfold first at h
  repeat' split at h
  all_goals cases h
  have hv : b.toNat.isValidChar := .inl (by have := b.toNat_lt; omega)
  have hbyte : b.toNat.toUInt8 = b := UInt8.ofNat_toNat
  rw [StandsIn, toNat_ofNat hv, hbyte]
  exact .inr hb

theorem standsIn_replacement (bs : List UInt8) : StandsIn bs replacement :=
  .inl (by decide)

theorem standsIn_lossyLoop {all : List UInt8} {p : Option Partial} {acc : List Char} {bs : List UInt8}
    (hp : ∀ q, p = some q → q.Wide) (hacc : ∀ c ∈ acc, StandsIn all c) (hbs : ∀ b ∈ bs, b ∈ all) :
    ∀ c ∈ lossyLoop p acc bs, StandsIn all c := by
  have hr := standsIn_replacement all
  have hwide : ∀ {b : UInt8} {q : Partial}, first b = .more q → ∀ q', some q = some q' → q'.Wide :=
    fun h q' heq => Option.some.inj heq ▸ wide_of_first h
  fun_induction lossyLoop p acc bs with
  | case1 acc => exact fun c hc => hacc c (List.mem_reverse.1 hc)
  | case2 p acc => exact fun c hc => List.forall_mem_cons.2 ⟨hr, hacc⟩ c (List.mem_reverse.1 hc)
  | case3 acc b bs c hb ih =>
    obtain ⟨hmem, hbs⟩ := List.forall_mem_cons.1 hbs
    exact ih nofun (List.forall_mem_cons.2 ⟨standsIn_of_first hmem hb, hacc⟩) hbs
  | case4 acc b bs q hb ih => exact ih (hwide hb) hacc (List.forall_mem_cons.1 hbs).2
  | case5 acc b bs hb ih => exact ih nofun (List.forall_mem_cons.2 ⟨hr, hacc⟩) (List.forall_mem_cons.1 hbs).2
  | case6 p acc b bs c hb ih =>
    have hc : StandsIn all c := .inl ((wide_of_next (hp p rfl)).1 c hb)
    exact ih nofun (List.forall_mem_cons.2 ⟨hc, hacc⟩) (List.forall_mem_cons.1 hbs).2
  | case7 p acc b bs q hb ih =>
    exact ih (fun q' heq => Option.some.inj heq ▸ (wide_of_next (hp p rfl)).2 q hb) hacc (List.forall_mem_cons.1 hbs).2
  | case8 p acc b bs hb c hf ih =>
    obtain ⟨hmem, hbs⟩ := List.forall_mem_cons.1 hbs
    exact ih nofun (List.forall_mem_cons.2 ⟨standsIn_of_first hmem hf, List.forall_mem_cons.2 ⟨hr, hacc⟩⟩) hbs
  | case9 p acc b bs hb q hf ih =>
    exact ih (hwide hf) (List.forall_mem_cons.2 ⟨hr, hacc⟩) (List.forall_mem_cons.1 hbs).2
  | case10 p acc b bs hb hf ih =>
    exact ih nofun (List.forall_mem_cons.2 ⟨hr, List.forall_mem_cons.2 ⟨hr, hacc⟩⟩) (List.forall_mem_cons.1 hbs).2

/-- **No byte below 0x80 comes into a text by being read lossily.** -/
theorem mem_bytes_lossy {bs : List UInt8} {b : UInt8} (hb : b ∈ bytes (lossy bs)) : 0x80 ≤ b.toNat ∨ b ∈ bs := by
  rw [bytes, lossy, String.toList_ofList] at hb
  obtain ⟨c, hc, hb⟩ := List.mem_flatMap.1 hb
  by_cases hlt : c.toNat < 0x80
  · rw [encodeChar_of_lt hlt, List.mem_singleton] at hb
    rcases standsIn_lossyLoop (fun _ h => by cases h) (fun _ h => by cases h) (fun _ h => h) c hc with h | h
    · omega
    · exact .inr (hb ▸ h)
  · exact .inl (mem_encodeChar hlt hb)

end Utf8
end SearchTelemetry
