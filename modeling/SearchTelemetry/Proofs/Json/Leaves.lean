import SearchTelemetry.Json.Printer
import SearchTelemetry.Proofs.Json.Tokens
import SearchTelemetry.Proofs.Text.Numeral
import SearchTelemetry.Proofs.Text.Utf8
/-!
# Json.Leaves — strings and numbers that are written are read back

A string is read back whatever is in it: each character is written so that the reader takes just its bytes
(`stringLoop_escapeChar`).  A number is read back if it is an integer that a 64-bit word holds or the zero below zero
(`number_chars`), as long as nothing follows it that could lengthen it.
-/
namespace SearchTelemetry
namespace Json

open Reader

/-! ## Strings -/

theorem stringLoop_plains : ∀ (bs acc rest : List UInt8), (∀ b ∈ bs, b ≠ 0x22 ∧ b ≠ 0x5C ∧ ¬b < 0x20) →
    stringLoop acc (bs ++ rest) = stringLoop (bs.reverse ++ acc) rest
  | [], acc, rest, _ => rfl
  | b :: bs, acc, rest, h => by
    obtain ⟨hq, hs, hc⟩ := h b (by simp)
    rw [List.cons_append, stringLoop_plain acc _ hq hs hc,
      stringLoop_plains bs (b :: acc) rest fun b' hb' => h b' (List.mem_cons_of_mem b hb')]
    simp

/-- The bytes of a character that needs no escape have no meaning of their own inside a string. -/
theorem plain_of_mem_encodeChar {c : Char} (hq : c ≠ '"') (hs : c ≠ '\\') (hc : 0x20 ≤ c.toNat) {b : UInt8}
    (hb : b ∈ Utf8.encodeChar c) : b ≠ 0x22 ∧ b ≠ 0x5C ∧ ¬b < 0x20 := by
  by_cases h : c.toNat < 0x80
  · rw [Utf8.encodeChar_of_lt h, List.mem_singleton] at hb
    have hn : b.toNat = c.toNat := by rw [hb, Utf8.toNat_toUInt8 (by omega)]
    have hne : ∀ d : Char, c ≠ d → c.toNat ≠ d.toNat := fun d hcd heq => hcd (Char.toNat_inj.1 heq)
    refine ⟨fun heq => hne '"' hq ?_, fun heq => hne '\\' hs ?_, fun hlt => ?_⟩
    · rw [← hn, heq]
      rfl
    · rw [← hn, heq]
      rfl
    · rw [UInt8.lt_iff_toNat_lt, hn] at hlt
      exact absurd hlt (by simpa using hc)
  · have := Utf8.mem_encodeChar h hb
    refine ⟨?_, ?_, fun hlt => ?_⟩
    · rintro rfl
      exact absurd this (by decide)
    · rintro rfl
      exact absurd this (by decide)
    · rw [UInt8.lt_iff_toNat_lt] at hlt
      simp only [UInt8.reduceToNat] at hlt
      omega

/-- The digits of a control, as they stand in its escape, spell it. -/
theorem hex4?_control : ∀ n < 0x20, hex4? 0x30 0x30 (Numeral.hexDigit (n / 16)).toNat.toUInt8
    (Numeral.hexDigit (n % 16)).toNat.toUInt8 = some n := by
  decide

theorem hexDigit_lt : ∀ n < 16, (Numeral.hexDigit n).toNat < 0x80 := by
  decide

/-- **A character as it is written is read as its bytes.** -/
theorem stringLoop_escapeChar (c : Char) (acc rest : List UInt8) :
    stringLoop acc (Utf8.encode (escapeChar c) ++ rest) = stringLoop ((Utf8.encodeChar c).reverse ++ acc) rest := by
  have hshort : ∀ {e : Char} {b : UInt8}, e.toNat < 0x80 → e.toNat.toUInt8 ≠ 0x75 →
      shortEscape? e.toNat.toUInt8 = some b → Utf8.encodeChar c = [b] →
      stringLoop acc (Utf8.encode ['\\', e] ++ rest) = stringLoop ((Utf8.encodeChar c).reverse ++ acc) rest := by
    intro e b he hne hb hc
    rw [Utf8.encode_cons, Utf8.encode_cons, Utf8.encodeChar_of_lt he, hc]
    exact stringLoop_short acc rest hne hb
  have hcontrol : ∀ {n : Nat}, c.toNat = n → n < 0x80 → Utf8.encodeChar c = [n.toUInt8] := by
    rintro n rfl h
    exact Utf8.encodeChar_of_lt h
  unfold escapeChar
  split
  · rename_i h
    subst h
    exact hshort (by decide) (by decide) rfl rfl
  split
  · rename_i h
    subst h
    exact hshort (by decide) (by decide) rfl rfl
  split
  · rename_i hq hs hc
    rw [Utf8.encode_cons, List.append_assoc]
    exact stringLoop_plains _ acc rest fun b hb => plain_of_mem_encodeChar hq hs hc hb
  rename_i hlt
  split
  · rename_i h
    exact hshort (by decide) (by decide) rfl (hcontrol h (by decide))
  split
  · rename_i h
    exact hshort (by decide) (by decide) rfl (hcontrol h (by decide))
  split
  · rename_i h
    exact hshort (by decide) (by decide) rfl (hcontrol h (by decide))
  split
  · rename_i h
    exact hshort (by decide) (by decide) rfl (hcontrol h (by decide))
  split
  · rename_i h
    exact hshort (by decide) (by decide) rfl (hcontrol h (by decide))
  · have hn : c.toNat < 0x20 := by omega
    have hhigh := Utf8.encodeChar_of_lt (hexDigit_lt (c.toNat / 16) (by omega))
    have hlow := Utf8.encodeChar_of_lt (hexDigit_lt (c.toNat % 16) (by omega))
    have hhex := stringLoop_hex acc rest (hex4?_control c.toNat hn)
      (by simp only [isLowHalf, Bool.and_eq_false_imp, decide_eq_true_eq]; omega)
      (by simp only [isHighHalf, Bool.and_eq_false_imp, decide_eq_true_eq]; omega)
    rw [Char.ofNat_toNat] at hhex
    simp only [Utf8.encode_cons, hhigh, hlow]
    exact hhex

theorem stringLoop_escapeChars : ∀ (cs : List Char) (acc rest : List UInt8),
    stringLoop acc (Utf8.encode (cs.flatMap escapeChar) ++ 0x22 :: rest) = some (acc.reverse ++ Utf8.encode cs, rest)
  | [], acc, rest => by
    rw [List.flatMap_nil]
    simpa [Utf8.encode] using stringLoop_quote acc rest
  | c :: cs, acc, rest => by
    rw [List.flatMap_cons, Utf8.encode_append, List.append_assoc, stringLoop_escapeChar, stringLoop_escapeChars cs]
    simp [Utf8.encode_cons]

/-- **A string that is written is read back.** -/
theorem string_stringChars (s : String) (rest : List UInt8) :
    ∃ bs, Utf8.encode (stringChars s) ++ rest = 0x22 :: bs ∧ string bs = some (s, rest) := by
  refine ⟨Utf8.encode (s.toList.flatMap escapeChar) ++ 0x22 :: rest, ?_, ?_⟩
  · simp [stringChars, Utf8.encode_append, Utf8.encode_cons, Utf8.encodeChar]
  · simp [string, stringLoop_escapeChars, Utf8.string?_encode]

/-! ## Numbers -/

/-- The zero below zero, which is no integer to the reader. -/
def minusZero : Binary64 :=
  ⟨true, 0, Binary64.minExponent⟩

/-- An integer that a 64-bit word holds, signed or not, or the zero below zero. -/
def Number.IsWhole : Number → Prop
  | .integer i => -(Numeral.pow2 63 : Int) ≤ i ∧ i < Numeral.pow2 64
  | .double x => x = minusZero

theorem isDigit_toUInt8 {c : Char} (h : Numeral.isDigit c = true) : isDigit c.toNat.toUInt8 = true := by
  obtain ⟨hl, hh⟩ := Numeral.le_of_isDigit h
  have hn := Utf8.toNat_toUInt8 (n := c.toNat) (by omega)
  simp only [isDigit, Bool.and_eq_true, decide_eq_true_eq, UInt8.le_iff_toNat_le, hn]
  exact ⟨hl, hh⟩

theorem encodeChar_of_isDigit {c : Char} (h : Numeral.isDigit c = true) : Utf8.encodeChar c = [c.toNat.toUInt8] :=
  Utf8.encodeChar_of_lt (by have := Numeral.le_of_isDigit h; omega)

theorem all_isDigit_encode : ∀ {cs : List Char}, (∀ c ∈ cs, Numeral.isDigit c = true) → (Utf8.encode cs).all isDigit
  | [], _ => rfl
  | c :: cs, h => by
    rw [Utf8.encode_cons, encodeChar_of_isDigit (h c (by simp)), List.singleton_append, List.all_cons,
      isDigit_toUInt8 (h c (by simp)), all_isDigit_encode fun c' hc' => h c' (List.mem_cons_of_mem c hc')]
    rfl

/-- Digits spell the same to both readers. -/
theorem foldl_encode : ∀ {cs : List Char} (n : Nat), (∀ c ∈ cs, Numeral.isDigit c = true) →
    (Utf8.encode cs).foldl (fun n d => n * 10 + digitValue d) n = Nat.ofDigitChars 10 cs n
  | [], n, _ => rfl
  | c :: cs, n, h => by
    have hc := h c (by simp)
    have hn := Utf8.toNat_toUInt8 (n := c.toNat) (by have := Numeral.le_of_isDigit hc; omega)
    have hv : n * 10 + digitValue c.toNat.toUInt8 = 10 * n + (c.toNat - '0'.toNat) := by
      rw [digitValue, hn, Nat.mul_comm]
      rfl
    rw [Utf8.encode_cons, encodeChar_of_isDigit hc, List.singleton_append, List.foldl_cons, hv,
      foldl_encode _ fun c' hc' => h c' (List.mem_cons_of_mem c hc'), Nat.ofDigitChars_cons]

theorem le_foldl : ∀ (ds : List UInt8) (n : Nat), n ≤ ds.foldl (fun n d => n * 10 + digitValue d) n
  | [], n => le_refl n
  | d :: ds, n => le_trans (by omega) (le_foldl ds (n * 10 + digitValue d))

/-- Digits of a number that a word holds are all taken in. -/
theorem absorb_of_le : ∀ {ds : List UInt8} {n : Nat}, ds.foldl (fun n d => n * 10 + digitValue d) n ≤ maxWord →
    absorb n ds = (ds.foldl (fun n d => n * 10 + digitValue d) n, [])
  | [], n, _ => rfl
  | d :: ds, n, h => by
    have hle : n * 10 + digitValue d ≤ maxWord := le_trans (le_foldl ds _) h
    rw [absorb, if_pos hle]
    exact absorb_of_le h

theorem absorb_digits {n : Nat} (h : n ≤ maxWord) : absorb 0 (Utf8.encode (Numeral.digits n)) = (n, []) := by
  have hfold := foldl_encode 0 fun c (hc : c ∈ Numeral.digits n) => Numeral.isDigit_of_mem_digits hc
  rw [Numeral.ofDigitChars_digits] at hfold
  rw [absorb_of_le (by rw [hfold]; exact h), hfold]

theorem wholeOk_digits (n : Nat) : WholeOk (Utf8.encode (Numeral.digits n)) := by
  have hdigit : ∀ c ∈ Numeral.digits n, Numeral.isDigit c = true := fun c hc => Numeral.isDigit_of_mem_digits hc
  obtain ⟨c, cs, hcs⟩ := List.exists_cons_of_ne_nil (Numeral.digits_ne_nil n)
  have hc : Numeral.isDigit c = true := hdigit c (by simp [hcs])
  have hencode : Utf8.encode (Numeral.digits n) = c.toNat.toUInt8 :: Utf8.encode cs := by
    rw [hcs, Utf8.encode_cons, encodeChar_of_isDigit hc, List.singleton_append]
  refine ⟨all_isDigit_encode hdigit, by simp [hencode], fun h => ?_⟩
  have hzero : c = '0' := by
    rw [hencode, List.head?_cons, Option.some.injEq] at h
    have hn := Utf8.toNat_toUInt8 (n := c.toNat) (by have := Numeral.le_of_isDigit hc; omega)
    rw [h] at hn
    exact Char.toNat_inj.1 hn.symm
  have hlength := Numeral.length_eq_one_of_head?_digits (n := n) (by rw [hcs, hzero, List.head?_cons])
  rw [hcs, List.length_cons] at hlength
  obtain rfl : cs = [] := List.length_eq_zero_iff.1 (by omega)
  simp [hencode]

/-- Digits that are written are read back as a numeral without a sign. -/
theorem unsignedNumeral_digits (negative : Bool) (n : Nat) {rest : List UInt8} (h : StopsAt goesOn rest) :
    unsignedNumeral negative (Utf8.encode (Numeral.digits n) ++ rest) =
      some (⟨negative, Utf8.encode (Numeral.digits n), none, none⟩, rest) := by
  refine unsignedNumeral_append (wholeOk_digits n) (h.mono fun b hb => ?_) (fraction_of_stopsAt (h.mono fun b hb => ?_))
    (exponent_of_stopsAt (h.mono fun b hb => ?_))
  · simp [goesOn, hb]
  · simp [goesOn, hb]
  · simp only [isExponentMark, Bool.or_eq_true] at hb
    rcases hb with hb | hb <;> simp [goesOn, hb]

theorem exists_digit_of_wholeOk {ds : List UInt8} (h : WholeOk ds) : ∃ b tail, ds = b :: tail ∧ isDigit b = true := by
  obtain ⟨hd, hne, -⟩ := h
  obtain ⟨b, tail, rfl⟩ := List.exists_cons_of_ne_nil hne
  exact ⟨b, tail, rfl, List.all_eq_true.1 hd b (by simp)⟩

theorem pow2_le_maxWord : Numeral.pow2 63 ≤ maxWord := by
  decide

theorem number?_digits {n : Nat} (h : n ≤ maxWord) :
    Numeral.number? ⟨false, Utf8.encode (Numeral.digits n), none, none⟩ = some (.integer n) := by
  simp [Numeral.number?, absorb_digits h]

theorem number?_minus_digits {n : Nat} (hpos : 0 < n) (hle : n ≤ Numeral.pow2 63) :
    Numeral.number? ⟨true, Utf8.encode (Numeral.digits n), none, none⟩ = some (.integer (-(n : Int))) := by
  simp [Numeral.number?, absorb_digits (le_trans hle pow2_le_maxWord), hpos, hle]

theorem number?_minusZero : Numeral.number? ⟨true, [0x30], some [0x30], none⟩ = some (.double minusZero) := by
  decide +kernel

/-- **A whole number that is written is read back.** -/
theorem number_chars {rest : List UInt8} (h : StopsAt goesOn rest) :
    ∀ {n : Number}, n.IsWhole → number (Utf8.encode n.chars ++ rest) = some (n, rest)
  | .integer i, hn => by
    by_cases hi : i < 0
    · have hle : i.natAbs ≤ Numeral.pow2 63 := by
        have := hn.1
        omega
      have hbytes : Utf8.encode (Number.chars (.integer i)) = 0x2D :: Utf8.encode (Numeral.digits i.natAbs) := by
        rw [Number.chars, Numeral.intDigits, if_pos hi]
        rfl
      have hvalue : -(i.natAbs : Int) = i := by omega
      rw [number, hbytes, List.cons_append, numeral_minus, unsignedNumeral_digits true _ h]
      simp only [number?_minus_digits (Int.natAbs_pos.2 (Int.ne_of_lt hi)) hle, Option.map_some, hvalue]
    · have hle : i.natAbs ≤ maxWord := by
        have := hn.2
        have : (Numeral.pow2 64 : Int) = (maxWord : Int) + 1 := by decide
        omega
      have hbytes : Utf8.encode (Number.chars (.integer i)) = Utf8.encode (Numeral.digits i.natAbs) := by
        rw [Number.chars, Numeral.intDigits, if_neg hi]
      have hstop : StopsAt (· == 0x2D) (Utf8.encode (Numeral.digits i.natAbs) ++ rest) := by
        obtain ⟨b, tail, hb, hd⟩ := exists_digit_of_wholeOk (wholeOk_digits i.natAbs)
        rw [hb]
        intro c hc
        obtain rfl : b = c := by simpa using hc
        rw [beq_eq_false_iff_ne]
        rintro rfl
        exact absurd hd (by decide)
      have hvalue : (i.natAbs : Int) = i := by omega
      rw [number, hbytes, numeral_of_stopsAt hstop, unsignedNumeral_digits false _ h]
      simp only [number?_digits hle, Option.map_some, hvalue]
  | .double x, hn => by
    obtain rfl : x = minusZero := hn
    have hbytes : Utf8.encode (Number.chars (.double minusZero)) = [0x2D, 0x30, 0x2E, 0x30] := by decide +kernel
    have hd : [0x30].all isDigit = true := by decide
    have hfraction : fraction (0x2E :: ([0x30] ++ rest)) = some (some [0x30], rest) :=
      fraction_append hd (by simp) (h.mono fun b hb => by simp [goesOn, hb])
    have hexponent : exponent rest = some (none, rest) :=
      exponent_of_stopsAt (h.mono fun b hb => by
        simp only [isExponentMark, Bool.or_eq_true] at hb
        rcases hb with hb | hb <;> simp [goesOn, hb])
    have hnumeral : unsignedNumeral true ([0x30] ++ 0x2E :: ([0x30] ++ rest)) =
        some (⟨true, [0x30], some [0x30], none⟩, rest) :=
      unsignedNumeral_append ⟨hd, by simp, fun _ => rfl⟩ (fun b hb => by
        obtain rfl : 0x2E = b := by simpa using hb
        decide) hfraction hexponent
    have hsplit : [0x2D, 0x30, 0x2E, 0x30] ++ rest = 0x2D :: ([0x30] ++ 0x2E :: ([0x30] ++ rest)) := rfl
    rw [number, hbytes, hsplit, numeral_minus, hnumeral]
    simp [number?_minusZero]

/-- A number that is written begins with a minus sign or a digit. -/
theorem exists_encode_chars : ∀ {n : Number}, n.IsWhole →
    ∃ b tail, Utf8.encode n.chars = b :: tail ∧ (b = 0x2D ∨ isDigit b = true)
  | .integer i, _ => by
    by_cases hi : i < 0
    · refine ⟨0x2D, Utf8.encode (Numeral.digits i.natAbs), ?_, .inl rfl⟩
      rw [Number.chars, Numeral.intDigits, if_pos hi]
      rfl
    · obtain ⟨b, tail, hb, hd⟩ := exists_digit_of_wholeOk (wholeOk_digits i.natAbs)
      refine ⟨b, tail, ?_, .inr hd⟩
      rw [Number.chars, Numeral.intDigits, if_neg hi, hb]
  | .double x, hn => by
    obtain rfl : x = minusZero := hn
    exact ⟨0x2D, [0x30, 0x2E, 0x30], by decide +kernel, .inl rfl⟩

end Json
end SearchTelemetry
