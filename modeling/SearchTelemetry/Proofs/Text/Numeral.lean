import Mathlib.Algebra.Group.Nat.Defs
import SearchTelemetry.Text.Blank
import SearchTelemetry.Text.Numeral
/-!
# Text.Numeral — the digits that are written

A number is written in digits only, without a zero in front of another digit (`length_eq_one_of_head?_digits`).  A padded
number has exactly its width, if it fits, and spells the same (`length_padded`, `ofDigitChars_padded`).  A signed number is
read back from its text (`int64?_intText`), and a number in base 16 from its digits in either case (`hexDigits?_of_spellsHex`).
-/
namespace SearchTelemetry

/-- A text without blanks stays as it is. -/
theorem Blank.trim_of_forall {cs : List Char} (h : ∀ c ∈ cs, isBlank c = false) : trim cs = cs := by
  have hdrop : ∀ ds : List Char, (∀ c ∈ ds, isBlank c = false) → ds.dropWhile isBlank = ds := fun ds hds => by
    cases ds with
    | nil => rfl
    | cons d ds => rw [List.dropWhile_cons_of_neg (by simp [hds d])]
  rw [trim, trimStart, hdrop cs h, trimEnd, trimEndWhile, hdrop _ fun c hc => h c (List.mem_reverse.1 hc),
    List.reverse_reverse]

/-- What is taken off the front of a text ends where the first character stands that is not of its kind. -/
theorem takeWhile_append_stop {p : Char → Bool} {cs rest : List Char} (hcs : ∀ c ∈ cs, p c = true)
    (hrest : ∀ c ∈ rest.head?, p c = false) : (cs ++ rest).takeWhile p = cs := by
  rw [List.takeWhile_append_of_pos hcs]
  cases rest with
  | nil => simp
  | cons c rest => rw [List.takeWhile_cons_of_neg (by simp [hrest c rfl]), List.append_nil]

namespace Numeral

theorem isDigit_eq (c : Char) : isDigit c = c.isDigit := by
  rw [Bool.eq_iff_iff]
  simp [isDigit, Char.isDigit, Char.le_def]

theorem isDigit_of_mem_digits {n : Nat} {c : Char} (h : c ∈ digits n) : isDigit c = true := by
  rw [isDigit_eq]
  exact Nat.isDigit_of_mem_toDigits (by decide) (by decide) h

theorem le_of_isDigit {c : Char} (h : isDigit c = true) : 0x30 ≤ c.toNat ∧ c.toNat ≤ 0x39 := by
  simp only [isDigit, Bool.and_eq_true, decide_eq_true_eq, Char.le_def, UInt32.le_iff_toNat_le] at h
  exact h

theorem digits_ne_nil (n : Nat) : digits n ≠ [] :=
  Nat.toDigits_ne_nil

theorem digits_of_le {n : Nat} (h : 10 ≤ n) : digits n = digits (n / 10) ++ [(n % 10).digitChar] :=
  Nat.toDigits_of_base_le (by decide) h

theorem digits_of_lt {n : Nat} (h : n < 10) : digits n = [n.digitChar] :=
  Nat.toDigits_of_lt_base h

theorem head?_digits_ne_zero (n : Nat) (hn : 0 < n) : (digits n).head? ≠ some '0' := by
  induction n using Nat.strongRecOn with
  | _ n ih =>
    by_cases h : n < 10
    · rw [digits_of_lt h, List.head?_cons]
      intro h0
      have := Nat.toNat_digitChar_of_lt_ten h
      rw [Option.some.inj h0] at this
      simp only [Char.reduceToNat] at this
      omega
    · obtain ⟨d, ds, hd⟩ := List.exists_cons_of_ne_nil (digits_ne_nil (n / 10))
      have := ih (n / 10) (by omega) (by omega)
      rw [hd] at this
      rwa [digits_of_le (by omega), hd]

/-- No zero stands in front of another digit. -/
theorem length_eq_one_of_head?_digits {n : Nat} (h : (digits n).head? = some '0') : (digits n).length = 1 := by
  by_cases hn : n = 0
  · subst hn
    rfl
  · exact absurd h (head?_digits_ne_zero n (by omega))

theorem isDigit_of_mem_padded {width n : Nat} {c : Char} (h : c ∈ padded width n) : isDigit c = true := by
  rcases List.mem_append.1 h with h | h
  · rw [(List.mem_replicate.1 h).2]
    rfl
  · exact isDigit_of_mem_digits h

theorem length_padded {width n : Nat} (hw : 0 < width) (h : n < 10 ^ width) : (padded width n).length = width := by
  have hle : (digits n).length ≤ width := (Nat.length_toDigits_le_iff (by decide) hw).2 h
  simp only [padded, List.length_append, List.length_replicate]
  omega

theorem le_length_padded (width n : Nat) : width ≤ (padded width n).length := by
  simp only [padded, List.length_append, List.length_replicate]
  omega

theorem ofDigitChars_padded (width n : Nat) : Nat.ofDigitChars 10 (padded width n) 0 = n := by
  rw [padded, Nat.ofDigitChars_append, Nat.ofDigitChars_replicate_zero, Nat.mul_zero]
  exact ofDigitChars_digits n

/-- Numbers that are written alike are the same. -/
theorem text_inj {m n : Nat} (h : text m = text n) : m = n := by
  have hdigits : digits m = digits n := String.ofList_injective h
  rw [← ofDigitChars_digits m, hdigits, ofDigitChars_digits]

/-! ## Signed numbers -/

theorem digits_ne_cons {c : Char} (hc : isDigit c = false) (n : Nat) (cs : List Char) : digits n ≠ c :: cs := fun h => by
  have hdigit : isDigit c = true := isDigit_of_mem_digits (n := n) (h ▸ List.mem_cons_self)
  rw [hdigit] at hc
  cases hc

theorem of_mem_intDigits {i : Int} {c : Char} (h : c ∈ intDigits i) : c = '-' ∨ isDigit c = true := by
  unfold intDigits at h
  split at h
  · exact (List.mem_cons.1 h).imp id isDigit_of_mem_digits
  · exact .inr (isDigit_of_mem_digits h)

theorem not_isBlank_of_mem_intDigits {i : Int} {c : Char} (h : c ∈ intDigits i) : Blank.isBlank c = false := by
  rcases of_mem_intDigits h with rfl | h
  · decide
  · obtain ⟨hl, hh⟩ := le_of_isDigit h
    simp only [Blank.isBlank, Bool.or_eq_false_iff, Bool.and_eq_false_imp, decide_eq_true_eq, decide_eq_false_iff_not,
      beq_eq_false_iff_ne]
    omega

theorem unsignedDigits?_digits (n : Nat) : unsignedDigits? (digits n) = some n := by
  have hall : (digits n).all isDigit = true := List.all_eq_true.2 fun c hc => isDigit_of_mem_digits hc
  simp [unsignedDigits?, digits_ne_nil, hall, ofDigitChars_digits]

theorem dropPlus_digits (n : Nat) : dropPlus (digits n) = digits n := by
  unfold dropPlus
  split
  · rename_i cs h
    exact absurd h (digits_ne_cons (by decide) n cs)
  · rfl

/-- **A signed number is read back from its text**, which has no blanks to be taken off. -/
theorem int64?_intText (i : Int64) : int64? (Blank.trim (intText i.toInt).toList) = some i := by
  have hl : -9223372036854775808 ≤ i.toInt := i.le_toInt
  have hh : i.toInt ≤ Int64.maxValue.toInt := Int64.toInt_le i
  have hfits : ∀ j : Int, j = i.toInt →
      ((some j).filter fun j => Int64.minValue.toInt ≤ j && j ≤ Int64.maxValue.toInt).map Int64.ofInt = some i := by
    rintro _ rfl
    simp [Option.filter, hl, hh]
  have hdigits := unsignedDigits?_digits i.toInt.natAbs
  rw [intText, String.toList_ofList, Blank.trim_of_forall fun c => not_isBlank_of_mem_intDigits, intDigits]
  by_cases hneg : i.toInt < 0
  · rw [if_pos hneg]
    simp only [int64?, hdigits]
    exact hfits (-(i.toInt.natAbs : Int)) (by omega)
  · rw [if_neg hneg]
    unfold int64?
    split
    · rename_i ds hds
      exact absurd hds (digits_ne_cons (by decide) _ ds)
    · rw [dropPlus_digits, hdigits]
      exact hfits (i.toInt.natAbs : Int) (by omega)

/-! ## Hexadecimal numbers -/

/-- These characters are the number in base 16, its letters in either case, with any number of zeros in front. -/
def SpellsHex (cs : List Char) (n : Nat) : Prop :=
  ∃ zeros, cs.map Char.toLower = List.replicate zeros '0' ++ hexDigits n

theorem spellsHex_hexDigits (n : Nat) : SpellsHex (hexDigits n) n := by
  refine ⟨0, ?_⟩
  rw [List.replicate_zero, List.nil_append]
  refine (List.map_congr_left fun c hc => ?_).trans (List.map_id _)
  have hlower : ∀ k < 16, (Nat.digitChar k).toLower = Nat.digitChar k := by decide
  induction n using Nat.strongRecOn with
  | _ n ih =>
    by_cases hn : n < 16
    · rw [hexDigits, Nat.toDigits_of_lt_base hn, List.mem_singleton] at hc
      rw [hc, hlower n hn]
      rfl
    · rw [hexDigits, Nat.toDigits_of_base_le (by decide) (by omega)] at hc
      rcases List.mem_append.1 hc with hc | hc
      · exact ih (n / 16) (by omega) hc
      · rw [List.mem_singleton.1 hc, hlower _ (by omega)]
        rfl

/-- The digits in base 16 read on from a number. -/
def hexFrom (acc : Option Nat) (cs : List Char) : Option Nat :=
  cs.foldl (fun acc c => acc.bind fun n => (hexValue? c).map (n * 16 + ·)) acc

theorem hexDigits?_eq {cs : List Char} (h : cs ≠ []) : hexDigits? cs = hexFrom (some 0) cs :=
  if_neg fun hnil => h (List.isEmpty_iff.1 hnil)

@[simp] theorem hexFrom_append (acc : Option Nat) (a b : List Char) :
    hexFrom acc (a ++ b) = hexFrom (hexFrom acc a) b :=
  List.foldl_append

theorem hexFrom_none (cs : List Char) : hexFrom none cs = none := by
  induction cs with
  | nil => rfl
  | cons c cs ih => exact ih

theorem hexFrom_zeros (zeros : Nat) : hexFrom (some 0) (List.replicate zeros '0') = some 0 := by
  induction zeros with
  | zero => rfl
  | succ zeros ih => exact ih

theorem hexValue?_digitChar : ∀ k < 16, hexValue? (Nat.digitChar k) = some k := by
  decide

theorem hexFrom_hexDigits (n : Nat) : hexFrom (some 0) (hexDigits n) = some n := by
  induction n using Nat.strongRecOn with
  | _ n ih =>
    by_cases hn : n < 16
    · rw [hexDigits, Nat.toDigits_of_lt_base hn]
      simp [hexFrom, hexValue?_digitChar n hn]
    · have hfront : hexFrom (some 0) (Nat.toDigits 16 (n / 16)) = some (n / 16) := ih (n / 16) (by omega)
      rw [hexDigits, Nat.toDigits_of_base_le (by decide) (by omega), hexFrom_append, hfront]
      simp only [hexFrom, List.foldl_cons, List.foldl_nil, Option.bind_some, hexValue?_digitChar _ (Nat.mod_lt n (by decide)),
        Option.map_some]
      rw [Nat.div_add_mod']

theorem toNat_toLower (c : Char) : c.toLower.toNat = if 0x41 ≤ c.toNat ∧ c.toNat ≤ 0x5A then c.toNat + 0x20 else c.toNat := by
  have hcapital : (c.val ≥ 'A'.val ∧ c.val ≤ 'Z'.val) ↔ 0x41 ≤ c.toNat ∧ c.toNat ≤ 0x5A := by
    rw [ge_iff_le, UInt32.le_iff_toNat_le, UInt32.le_iff_toNat_le]
    rfl
  by_cases h : 0x41 ≤ c.toNat ∧ c.toNat ≤ 0x5A
  · have hlower : c.toLower.val = c.val + ('a'.val - 'A'.val) := congrArg Char.val (dif_pos (hcapital.2 h))
    have hshift : ('a'.val - 'A'.val).toNat = 0x20 := rfl
    have hle : c.val.toNat ≤ 0x5A := h.2
    rw [if_pos h]
    show c.toLower.val.toNat = c.val.toNat + 0x20
    rw [hlower, UInt32.toNat_add, hshift]
    exact Nat.mod_eq_of_lt (by omega)
  · have hlower : c.toLower = c := dif_neg fun hc => h (hcapital.1 hc)
    rw [if_neg h, hlower]

theorem hexValue?_eq (c : Char) : hexValue? c =
    if 0x30 ≤ c.toNat ∧ c.toNat ≤ 0x39 then some (c.toNat - 0x30)
    else if 0x61 ≤ c.toNat ∧ c.toNat ≤ 0x66 then some (c.toNat - 0x61 + 10)
    else if 0x41 ≤ c.toNat ∧ c.toNat ≤ 0x46 then some (c.toNat - 0x41 + 10)
    else none := by
  simp only [hexValue?, Char.le_def, UInt32.le_iff_toNat_le]
  rfl

theorem hexValue?_toLower (c : Char) : hexValue? c.toLower = hexValue? c := by
  rw [hexValue?_eq, hexValue?_eq, toNat_toLower]
  generalize c.toNat = n
  by_cases hupper : 0x41 ≤ n ∧ n ≤ 0x5A
  · rw [if_pos hupper]
    by_cases hletter : n ≤ 0x46
    · rw [if_neg (by omega), if_pos (by omega), if_neg (by omega), if_neg (by omega), if_pos (by omega)]
      exact congrArg some (by omega)
    · rw [if_neg (by omega), if_neg (by omega), if_neg (by omega), if_neg (by omega), if_neg (by omega), if_neg (by omega)]
  · rw [if_neg hupper]

theorem hexFrom_map_toLower (acc : Option Nat) (cs : List Char) : hexFrom acc (cs.map Char.toLower) = hexFrom acc cs := by
  simp only [hexFrom, List.foldl_map, hexValue?_toLower]

theorem SpellsHex.ne_nil {cs : List Char} {n : Nat} (h : SpellsHex cs n) : cs ≠ [] := by
  rintro rfl
  obtain ⟨zeros, h⟩ := h
  exact Nat.toDigits_ne_nil (List.append_eq_nil_iff.1 h.symm).2

/-- **A number is read from its digits in base 16**, whatever their case and however many zeros are in front. -/
theorem hexDigits?_of_spellsHex {cs : List Char} {n : Nat} (h : SpellsHex cs n) : hexDigits? cs = some n := by
  obtain ⟨zeros, hcs⟩ := h
  rw [hexDigits?_eq (SpellsHex.ne_nil ⟨zeros, hcs⟩), ← hexFrom_map_toLower, hcs, hexFrom_append, hexFrom_zeros,
    hexFrom_hexDigits]

theorem hexValue?_ne_none_of_hexFrom {cs : List Char} {acc : Option Nat} {n : Nat} (h : hexFrom acc cs = some n) {c : Char}
    (hc : c ∈ cs) : hexValue? c ≠ none := by
  obtain ⟨a, b, rfl⟩ := List.append_of_mem hc
  intro hnone
  have hstop : hexFrom acc (a ++ c :: b) = none := by
    rw [hexFrom_append]
    show hexFrom ((hexFrom acc a).bind fun n => (hexValue? c).map (n * 16 + ·)) b = none
    rw [hnone]
    cases hexFrom acc a <;> exact hexFrom_none b
  rw [hstop] at h
  cases h

/-- The characters that have a value in base 16. -/
theorem toNat_of_hexValue? {c : Char} (h : hexValue? c ≠ none) :
    (0x30 ≤ c.toNat ∧ c.toNat ≤ 0x39) ∨ (0x61 ≤ c.toNat ∧ c.toNat ≤ 0x66) ∨ (0x41 ≤ c.toNat ∧ c.toNat ≤ 0x46) := by
  rw [hexValue?_eq] at h
  refine Decidable.byContradiction fun hno => ?_
  rw [if_neg (by omega), if_neg (by omega), if_neg (by omega)] at h
  exact h rfl

theorem SpellsHex.hexValue?_ne_none {cs : List Char} {n : Nat} (h : SpellsHex cs n) {c : Char} (hc : c ∈ cs) :
    hexValue? c ≠ none := by
  have hread := hexDigits?_of_spellsHex h
  rw [hexDigits?_eq h.ne_nil] at hread
  exact hexValue?_ne_none_of_hexFrom hread hc

theorem SpellsHex.toNat_of_mem {cs : List Char} {n : Nat} (h : SpellsHex cs n) {c : Char} (hc : c ∈ cs) :
    (0x30 ≤ c.toNat ∧ c.toNat ≤ 0x39) ∨ (0x61 ≤ c.toNat ∧ c.toNat ≤ 0x66) ∨ (0x41 ≤ c.toNat ∧ c.toNat ≤ 0x46) :=
  toNat_of_hexValue? (h.hexValue?_ne_none hc)

theorem SpellsHex.not_isBlank {cs : List Char} {n : Nat} (h : SpellsHex cs n) {c : Char} (hc : c ∈ cs) :
    Blank.isBlank c = false := by
  have := h.toNat_of_mem hc
  simp only [Blank.isBlank, Bool.or_eq_false_iff, Bool.and_eq_false_imp, decide_eq_true_eq, decide_eq_false_iff_not,
    beq_eq_false_iff_ne]
  omega

theorem SpellsHex.dropPlus {cs : List Char} {n : Nat} (h : SpellsHex cs n) : dropPlus cs = cs := by
  unfold Numeral.dropPlus
  split
  · have := h.toNat_of_mem List.mem_cons_self
    simp only [Char.reduceToNat] at this
    omega
  · rfl

/-- A number that the word holds is read from its digits in base 16. -/
theorem hex?_of_spellsHex {bits n : Nat} {cs : List Char} (h : SpellsHex cs n) (hn : n < pow2 bits) : hex? bits cs = some n := by
  rw [hex?, h.dropPlus, hexDigits?_of_spellsHex h]
  simp [Option.filter, hn]

end Numeral
end SearchTelemetry
