import SearchTelemetry.Text.Lowercase
/-!
# Text.Lowered — the beginning of a text in lower case

Lower-casing goes character by character (`lower_eq`), and what a character becomes hangs on what stands around it only for
the capital sigma.  So the beginning of a text, lower-cased by itself, is the beginning of the lower-cased text, except where
it ends in a sigma that is the last of its word there and not the last of its word in the whole text
(`lower_isPrefix_append_iff`).
-/
namespace SearchTelemetry
namespace Lowercase

/-- A text in lower case, character by character, with what came before it in reverse. -/
def lowerFrom (before : List Char) : List Char → List Char
  | [] => []
  | c :: cs => (if c = capitalSigma then [lowerSigma before cs] else lowerChar c) ++ lowerFrom (c :: before) cs

variable {before cs rest : List Char} {c : Char}

theorem lowerLoop_eq : ∀ (cs before done : List Char), lowerLoop before done cs = done.reverse ++ lowerFrom before cs
  | [], before, done => by simp [lowerLoop, lowerFrom]
  | c :: cs, before, done => by
    unfold lowerLoop lowerFrom
    by_cases hc : c = capitalSigma
    · rw [if_pos hc, if_pos hc, lowerLoop_eq cs]
      simp
    · rw [if_neg hc, if_neg hc, lowerLoop_eq cs]
      simp

theorem lower_eq (cs : List Char) : lower cs = lowerFrom [] cs :=
  lowerLoop_eq cs [] []

/-! ## Lengths -/

theorem lowerChar_ne_nil (c : Char) : lowerChar c ≠ [] := by
  unfold lowerChar
  repeat' split
  all_goals exact List.cons_ne_nil _ _

theorem lowerFrom_ne_nil (h : cs ≠ []) : lowerFrom before cs ≠ [] := by
  cases cs with
  | nil => exact absurd rfl h
  | cons c cs =>
    refine List.append_ne_nil_of_left_ne_nil ?_ _
    split
    · exact List.cons_ne_nil _ _
    · exact lowerChar_ne_nil c

theorem length_lowerFrom_append (rest : List Char) : ∀ cs before : List Char,
    (lowerFrom before (cs ++ rest)).length =
      (lowerFrom before cs).length + (lowerFrom (cs.reverse ++ before) rest).length
  | [], before => by simp [lowerFrom]
  | c :: cs, before => by
    -- a sigma is one character in either form, whatever follows it
    have hfront : ∀ after after' : List Char,
        (if c = capitalSigma then [lowerSigma before after] else lowerChar c).length =
          (if c = capitalSigma then [lowerSigma before after'] else lowerChar c).length := fun _ _ => by
      split <;> rfl
    rw [List.cons_append, lowerFrom, lowerFrom, List.length_append, List.length_append, hfront _ cs,
      length_lowerFrom_append rest cs, List.reverse_cons, List.append_assoc, Nat.add_assoc]
    rfl

theorem lower_append_ne (h : rest ≠ []) (cs : List Char) : lower (cs ++ rest) ≠ lower cs := by
  intro heq
  have hpos : 0 < (lowerFrom (cs.reverse ++ []) rest).length := List.length_pos_iff.2 (lowerFrom_ne_nil h)
  have hlength := length_lowerFrom_append rest cs []
  rw [← lower_eq, ← lower_eq, heq] at hlength
  omega

/-! ## The sigma at the end -/

/-- All the text is case-ignorable. -/
def isIgnorable (cs : List Char) : Bool :=
  cs.all (Ranges.contains ignorableRuns)

/-- A text, with what came before it in reverse, ends in a capital sigma behind a cased character, case-ignorable
characters aside. -/
def EndsInSigma (before cs : List Char) : Prop :=
  ∃ front ignored, cs = front ++ capitalSigma :: ignored ∧ leadsCased (front.reverse ++ before) = true ∧
    isIgnorable ignored = true

theorem not_endsInSigma_nil : ¬ EndsInSigma before [] :=
  fun ⟨front, ignored, h, _⟩ => List.append_ne_nil_of_right_ne_nil front (List.cons_ne_nil _ ignored) h.symm

theorem endsInSigma_cons : EndsInSigma before (c :: cs) ↔
    (c = capitalSigma ∧ leadsCased before = true ∧ isIgnorable cs = true) ∨ EndsInSigma (c :: before) cs := by
  constructor
  · rintro ⟨front, ignored, h, hbefore, hignored⟩
    cases front with
    | nil =>
      obtain ⟨rfl, rfl⟩ := List.cons.inj h
      exact .inl ⟨rfl, hbefore, hignored⟩
    | cons d front =>
      obtain ⟨rfl, rfl⟩ := List.cons.inj h
      exact .inr ⟨front, ignored, rfl, by simpa using hbefore, hignored⟩
  · rintro (⟨rfl, hbefore, hignored⟩ | ⟨front, ignored, rfl, hbefore, hignored⟩)
    · exact ⟨[], cs, rfl, hbefore, hignored⟩
    · exact ⟨c :: front, ignored, rfl, by simpa using hbefore, hignored⟩

theorem leadsCased_append (cs rest : List Char) :
    leadsCased (cs ++ rest) = if isIgnorable cs then leadsCased rest else leadsCased cs := by
  induction cs with
  | nil => rfl
  | cons c cs ih =>
    by_cases hc : Ranges.contains ignorableRuns c = true
    · simpa [leadsCased, isIgnorable, hc] using ih
    · simp [leadsCased, isIgnorable, hc]

theorem leadsCased_of_isIgnorable (h : isIgnorable cs = true) : leadsCased cs = false := by
  have happend := leadsCased_append cs []
  rw [List.append_nil, if_pos h] at happend
  exact happend

/-- A sigma changes its form with what is put behind the text just if it was the last of its word and is not any more. -/
theorem lowerSigma_append_iff : lowerSigma before cs = lowerSigma before (cs ++ rest) ↔
    ¬ ((leadsCased before = true ∧ isIgnorable cs = true) ∧ leadsCased rest = true) := by
  have hforms : Char.ofNat 0x3C2 ≠ Char.ofNat 0x3C3 := by decide
  unfold lowerSigma
  rw [leadsCased_append]
  by_cases hcs : isIgnorable cs = true
  · rw [leadsCased_of_isIgnorable hcs, if_pos hcs]
    cases leadsCased before <;> cases leadsCased rest <;> simp [hcs, hforms]
  · simp [hcs]

theorem lowerFrom_isPrefix_append_iff (rest : List Char) : ∀ cs before : List Char,
    lowerFrom before cs <+: lowerFrom before (cs ++ rest) ↔ ¬ (EndsInSigma before cs ∧ leadsCased rest = true)
  | [], before => by simp [lowerFrom, not_endsInSigma_nil]
  | c :: cs, before => by
    rw [List.cons_append, lowerFrom, lowerFrom, endsInSigma_cons]
    by_cases hc : c = capitalSigma
    · rw [if_pos hc, if_pos hc, List.singleton_append, List.singleton_append, List.cons_prefix_cons,
        lowerFrom_isPrefix_append_iff rest cs, lowerSigma_append_iff, or_and_right, not_or, eq_true hc, true_and]
    · rw [if_neg hc, if_neg hc, List.prefix_append_right_inj, lowerFrom_isPrefix_append_iff rest cs]
      simp [hc]

/-- **The beginning of a text in lower case is the beginning of the text in lower case**, except where it ends in the last
sigma of a word and the rest goes on with the word. -/
theorem lower_isPrefix_append_iff (cs rest : List Char) :
    lower cs <+: lower (cs ++ rest) ↔ ¬ (EndsInSigma [] cs ∧ leadsCased rest = true) := by
  rw [lower_eq, lower_eq, lowerFrom_isPrefix_append_iff]

end Lowercase
end SearchTelemetry
