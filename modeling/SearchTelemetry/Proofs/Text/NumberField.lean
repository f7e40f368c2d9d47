import Mathlib.Data.List.Basic
import Mathlib.Data.List.Induction
import Mathlib.Data.List.TakeWhile
import SearchTelemetry.Proofs.Text.Numeral
/-!
# Text.NumberField — what is taken for a number

A reader that takes the blanks off a text and then a plus sign accepts more than digits.  A `Field` is a text that it accepts,
part by part: there is one for each number that is read (`unsigned?_trim_eq_some`, `hex?_trim_eq_some`), and its parts are
settled by its text (`Field.text_inj`).
-/
namespace SearchTelemetry

/-! ## Blanks around a text -/

namespace Blank

variable {cs front back : List Char}

theorem all_nil : ∀ c ∈ ([] : List Char), isBlank c = true :=
  List.forall_mem_nil _

theorem exists_of_trim (cs : List Char) : ∃ front back, cs = front ++ (trim cs ++ back) ∧
    (∀ c ∈ front, isBlank c = true) ∧ ∀ c ∈ back, isBlank c = true := by
  obtain ⟨back, hkept, hback, -⟩ := exists_of_trimEndWhile isBlank (trimStart cs)
  refine ⟨cs.takeWhile isBlank, back, ?_, fun c hc => List.mem_takeWhile_imp hc, hback⟩
  calc cs = cs.takeWhile isBlank ++ trimStart cs := List.takeWhile_append_dropWhile.symm
    _ = cs.takeWhile isBlank ++ (trim cs ++ back) := congrArg (cs.takeWhile isBlank ++ ·) hkept

/-- Blanks are taken off up to a text without any. -/
theorem trim_append_append (hfront : ∀ c ∈ front, isBlank c = true) (hcs : ∀ c ∈ cs, isBlank c = false) (hne : cs ≠ [])
    (hback : ∀ c ∈ back, isBlank c = true) : trim (front ++ (cs ++ back)) = cs := by
  have hstop : ∀ ds rest : List Char, ds ≠ [] → (∀ c ∈ ds, isBlank c = false) →
      (ds ++ rest).dropWhile isBlank = ds ++ rest := fun ds rest hne hds => by
    cases ds with
    | nil => exact absurd rfl hne
    | cons d ds => exact List.dropWhile_cons_of_neg (by simp [hds d])
  have hback' : ∀ c ∈ back.reverse, isBlank c = true := fun c hc => hback c (List.mem_reverse.1 hc)
  have hrev := hstop cs.reverse [] (mt List.reverse_eq_nil_iff.1 hne) fun c hc => hcs c (List.mem_reverse.1 hc)
  rw [List.append_nil] at hrev
  rw [trim, trimStart, List.dropWhile_append_of_pos hfront, hstop cs back hne hcs, trimEnd, trimEndWhile,
    List.reverse_append, List.dropWhile_append_of_pos hback', hrev, List.reverse_reverse]

end Blank

namespace Numeral

/-! ## Fields -/

/-- A kind of digit: no blank, and no sign. -/
structure IsDigitKind (p : Char → Bool) : Prop where
  notBlank : ∀ c, p c = true → Blank.isBlank c = false
  notPlus : p '+' = false

/-- Digits of a kind, perhaps behind a plus sign, and blanks on both sides. -/
structure Field (p : Char → Bool) where
  lead : List Char
  signed : Bool
  digits : List Char
  trail : List Char
  leadBlank : ∀ c ∈ lead, Blank.isBlank c = true
  full : digits ≠ []
  ofKind : ∀ c ∈ digits, p c = true
  trailBlank : ∀ c ∈ trail, Blank.isBlank c = true

namespace Field

variable {p : Char → Bool} {f g : Field p}

/-- The field without its blanks. -/
def core (f : Field p) : List Char :=
  if f.signed then '+' :: f.digits else f.digits

def text (f : Field p) : List Char :=
  f.lead ++ (f.core ++ f.trail)

/-- The digits are the first thing in the field. -/
def IsBare (f : Field p) : Prop :=
  f.lead = [] ∧ f.signed = false

/-- Digits and blanks behind them. -/
def ofDigits (digits trail : List Char) (full : digits ≠ []) (ofKind : ∀ c ∈ digits, p c = true)
    (trailBlank : ∀ c ∈ trail, Blank.isBlank c = true) : Field p :=
  ⟨[], false, digits, trail, Blank.all_nil, full, ofKind, trailBlank⟩

theorem text_of_isBare (h : f.IsBare) : f.text = f.digits ++ f.trail := by
  unfold text core
  rw [h.1, h.2]
  rfl

theorem mem_core {c : Char} (h : c ∈ f.core) : c = '+' ∨ p c = true := by
  unfold core at h
  split at h
  · exact (List.mem_cons.1 h).imp_right (f.ofKind c)
  · exact .inr (f.ofKind c h)

theorem mem_text {c : Char} (h : c ∈ f.text) : Blank.isBlank c = true ∨ c = '+' ∨ p c = true := by
  rcases List.mem_append.1 h with h | h
  · exact .inl (f.leadBlank c h)
  · rcases List.mem_append.1 h with h | h
    · exact .inr (mem_core h)
    · exact .inl (f.trailBlank c h)

theorem core_ne_nil (f : Field p) : f.core ≠ [] := by
  unfold core
  split
  · exact List.cons_ne_nil _ _
  · exact f.full

theorem notBlank_of_mem_core (hp : IsDigitKind p) {c : Char} (h : c ∈ f.core) : Blank.isBlank c = false := by
  rcases mem_core h with rfl | h
  · decide
  · exact hp.notBlank c h

theorem dropPlus_core (hp : IsDigitKind p) (f : Field p) : dropPlus f.core = f.digits := by
  unfold core
  split
  · rfl
  · unfold dropPlus
    split
    · rename_i cs h
      have hplus : p '+' = true := f.ofKind '+' (h ▸ List.mem_cons_self)
      rw [hp.notPlus] at hplus
      cases hplus
    · rfl

theorem trim_text (hp : IsDigitKind p) (f : Field p) : Blank.trim f.text = f.core :=
  Blank.trim_append_append f.leadBlank (fun _ => notBlank_of_mem_core hp) f.core_ne_nil f.trailBlank

theorem takeWhile_text (hp : IsDigitKind p) (f : Field p) : f.text.takeWhile Blank.isBlank = f.lead := by
  refine takeWhile_append_stop f.leadBlank fun c hc => ?_
  rw [List.head?_append_of_ne_nil f.core f.core_ne_nil] at hc
  exact notBlank_of_mem_core hp (List.mem_of_mem_head? hc)

/-- **A text is taken apart in one way.** -/
theorem text_inj (hp : IsDigitKind p) (h : f.text = g.text) : f = g := by
  have hcore : f.core = g.core := by rw [← trim_text hp, h, trim_text hp]
  have hdigits : f.digits = g.digits := by rw [← dropPlus_core hp, hcore, dropPlus_core hp]
  have hlead : f.lead = g.lead := by rw [← takeWhile_text hp, h, takeWhile_text hp]
  have htrail : f.trail = g.trail := by
    unfold text at h
    rw [hlead, hcore] at h
    exact List.append_cancel_left (List.append_cancel_left h)
  have hsigned : f.signed = g.signed := by
    unfold core at hcore
    rw [hdigits] at hcore
    cases hf : f.signed <;> cases hg : g.signed <;> simp [hf, hg] at hcore ⊢
  obtain ⟨⟩ := f
  obtain ⟨⟩ := g
  cases hlead
  cases hsigned
  cases hdigits
  cases htrail
  rfl

/-- Any text whose core is made of digits is a field. -/
theorem exists_of_dropPlus {cs : List Char} (hne : dropPlus (Blank.trim cs) ≠ [])
    (hkind : ∀ c ∈ dropPlus (Blank.trim cs), p c = true) :
    ∃ f : Field p, f.text = cs ∧ f.digits = dropPlus (Blank.trim cs) := by
  obtain ⟨front, back, hcs, hfront, hback⟩ := Blank.exists_of_trim cs
  obtain ⟨signed, hsigned⟩ : ∃ signed, Blank.trim cs =
      if signed = true then '+' :: dropPlus (Blank.trim cs) else dropPlus (Blank.trim cs) := by
    unfold dropPlus
    split
    · rename_i ds h
      exact ⟨true, h⟩
    · exact ⟨false, rfl⟩
  refine ⟨⟨front, signed, dropPlus (Blank.trim cs), back, hfront, hne, hkind, hback⟩, ?_, rfl⟩
  show front ++ ((if signed = true then '+' :: dropPlus (Blank.trim cs) else dropPlus (Blank.trim cs)) ++ back) = cs
  rw [← hsigned]
  exact hcs.symm

end Field

/-! ## Decimal fields -/

theorem isDigitKind_isDigit : IsDigitKind isDigit where
  notBlank c h := by
    obtain ⟨hl, hh⟩ := le_of_isDigit h
    simp only [Blank.isBlank, Bool.or_eq_false_iff, Bool.and_eq_false_imp, decide_eq_true_eq, decide_eq_false_iff_not,
      beq_eq_false_iff_ne]
    omega
  notPlus := by decide

theorem unsignedDigits?_eq_some {cs : List Char} {n : Nat} :
    unsignedDigits? cs = some n ↔ cs ≠ [] ∧ (∀ c ∈ cs, isDigit c = true) ∧ Nat.ofDigitChars 10 cs 0 = n := by
  unfold unsignedDigits?
  rw [← List.all_eq_true]
  by_cases hne : cs = []
  · simp [hne]
  · cases cs.all isDigit <;> simp [hne]

/-- **The numbers that are read are those of fields.** -/
theorem unsigned?_trim_eq_some {bits n : Nat} {cs : List Char} : unsigned? bits (Blank.trim cs) = some n ↔
    ∃ f : Field isDigit, f.text = cs ∧ Nat.ofDigitChars 10 f.digits 0 = n ∧ n < pow2 bits := by
  unfold unsigned?
  rw [Option.filter_eq_some_iff, unsignedDigits?_eq_some, decide_eq_true_eq]
  constructor
  · rintro ⟨⟨hne, hall, hn⟩, hfits⟩
    obtain ⟨f, rfl, hdigits⟩ := Field.exists_of_dropPlus hne hall
    exact ⟨f, rfl, hdigits ▸ hn, hfits⟩
  · rintro ⟨f, rfl, hn, hfits⟩
    rw [Field.trim_text isDigitKind_isDigit, Field.dropPlus_core isDigitKind_isDigit]
    exact ⟨⟨f.full, f.ofKind, hn⟩, hfits⟩

/-! ## Fields in base 16 -/

/-- A character with a value in base 16. -/
def isHexDigit (c : Char) : Bool :=
  (hexValue? c).isSome

theorem toNat_of_isHexDigit {c : Char} (h : isHexDigit c = true) :
    (0x30 ≤ c.toNat ∧ c.toNat ≤ 0x39) ∨ (0x61 ≤ c.toNat ∧ c.toNat ≤ 0x66) ∨ (0x41 ≤ c.toNat ∧ c.toNat ≤ 0x46) :=
  toNat_of_hexValue? (Option.isSome_iff_ne_none.1 h)

theorem isDigitKind_isHexDigit : IsDigitKind isHexDigit where
  notBlank c h := by
    have := toNat_of_isHexDigit h
    simp only [Blank.isBlank, Bool.or_eq_false_iff, Bool.and_eq_false_imp, decide_eq_true_eq, decide_eq_false_iff_not,
      beq_eq_false_iff_ne]
    omega
  notPlus := by decide

theorem toNat_digitChar : ∀ k < 16, (Nat.digitChar k).toNat = if k < 10 then 0x30 + k else 0x57 + k := by
  decide

/-- A digit in base 16 is that of its value, in one of two cases. -/
theorem toLower_of_hexValue? {c : Char} {k : Nat} (h : hexValue? c = some k) : k < 16 ∧ c.toLower = Nat.digitChar k := by
  have hkind := toNat_of_hexValue? (Option.ne_none_iff_exists'.2 ⟨k, h⟩)
  rw [hexValue?_eq] at h
  have hk : k < 16 ∧ c.toLower.toNat = if k < 10 then 0x30 + k else 0x57 + k := by
    rw [toNat_toLower]
    rcases hkind with hd | hl | hu
    · rw [if_pos hd, Option.some_inj] at h
      rw [if_neg (by omega), if_pos (by omega)]
      omega
    · rw [if_neg (by omega), if_pos hl, Option.some_inj] at h
      rw [if_neg (by omega), if_neg (by omega)]
      omega
    · rw [if_neg (by omega), if_neg (by omega), if_pos hu, Option.some_inj] at h
      rw [if_pos (by omega), if_neg (by omega)]
      omega
  refine ⟨hk.1, Char.toNat_inj.1 ?_⟩
  rw [hk.2, toNat_digitChar k hk.1]

theorem hexFrom_concat (acc : Option Nat) (cs : List Char) (c : Char) :
    hexFrom acc (cs ++ [c]) = (hexFrom acc cs).bind fun n => (hexValue? c).map (n * 16 + ·) :=
  hexFrom_append acc cs [c]

theorem spellsHex_of_hexFrom {cs : List Char} {n : Nat} (hne : cs ≠ []) (h : hexFrom (some 0) cs = some n) :
    SpellsHex cs n := by
  induction cs using List.reverseRecOn generalizing n with
  | nil => exact absurd rfl hne
  | append_singleton cs c ih =>
    rw [hexFrom_concat, Option.bind_eq_some_iff] at h
    obtain ⟨m, hm, hn⟩ := h
    obtain ⟨k, hk, rfl⟩ := Option.map_eq_some_iff.1 hn
    obtain ⟨hlt, hlower⟩ := toLower_of_hexValue? hk
    have hone : hexDigits k = [Nat.digitChar k] := Nat.toDigits_of_lt_base hlt
    by_cases hcs : cs = []
    · subst hcs
      obtain rfl : 0 = m := Option.some.inj hm
      refine ⟨0, ?_⟩
      rw [Nat.zero_mul, Nat.zero_add, hone]
      simp [hlower]
    · obtain ⟨zeros, hzeros⟩ := ih hcs hm
      by_cases hzero : m = 0
      · -- the zero that was all of the number so far is now one more in front
        subst hzero
        refine ⟨zeros + 1, ?_⟩
        have hdigits : hexDigits 0 = ['0'] := rfl
        rw [Nat.zero_mul, Nat.zero_add, hone, List.map_append, hzeros, hdigits, List.replicate_succ']
        simp [hlower]
      · refine ⟨zeros, ?_⟩
        have hdigits : hexDigits (m * 16 + k) = hexDigits m ++ [Nat.digitChar k] := by
          rw [hexDigits, Nat.toDigits_of_base_le (by decide) (by omega)]
          have hdiv : (m * 16 + k) / 16 = m := by omega
          have hmod : (m * 16 + k) % 16 = k := by omega
          rw [hdiv, hmod]
          rfl
        rw [List.map_append, hzeros, hdigits, List.append_assoc]
        simp [hlower]

theorem hexDigits?_eq_some {cs : List Char} {n : Nat} : hexDigits? cs = some n ↔ SpellsHex cs n := by
  constructor
  · intro h
    by_cases hne : cs = []
    · subst hne
      cases h
    · rw [hexDigits?_eq hne] at h
      exact spellsHex_of_hexFrom hne h
  · exact hexDigits?_of_spellsHex

theorem SpellsHex.isHexDigit {cs : List Char} {n : Nat} (h : SpellsHex cs n) {c : Char} (hc : c ∈ cs) :
    isHexDigit c = true :=
  Option.isSome_iff_ne_none.2 (h.hexValue?_ne_none hc)

/-- Digits spell one number. -/
theorem SpellsHex.unique {cs : List Char} {m n : Nat} (h : SpellsHex cs m) (h' : SpellsHex cs n) : m = n :=
  Option.some.inj ((hexDigits?_of_spellsHex h).symm.trans (hexDigits?_of_spellsHex h'))

/-- **The numbers that are read in base 16 are those of fields.** -/
theorem hex?_trim_eq_some {bits n : Nat} {cs : List Char} : hex? bits (Blank.trim cs) = some n ↔
    ∃ f : Field isHexDigit, f.text = cs ∧ SpellsHex f.digits n ∧ n < pow2 bits := by
  unfold hex?
  rw [Option.filter_eq_some_iff, hexDigits?_eq_some, decide_eq_true_eq]
  constructor
  · rintro ⟨hspells, hfits⟩
    obtain ⟨f, rfl, hdigits⟩ := Field.exists_of_dropPlus hspells.ne_nil fun c hc => hspells.isHexDigit hc
    exact ⟨f, rfl, hdigits ▸ hspells, hfits⟩
  · rintro ⟨f, rfl, hspells, hfits⟩
    rw [Field.trim_text isDigitKind_isHexDigit, Field.dropPlus_core isDigitKind_isHexDigit]
    exact ⟨hspells, hfits⟩

end Numeral
end SearchTelemetry
