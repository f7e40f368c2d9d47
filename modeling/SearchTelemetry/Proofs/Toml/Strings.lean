import Mathlib.Data.List.TakeWhile
import Mathlib.Tactic.SplitIfs
import SearchTelemetry.Proofs.Text.Numeral
import SearchTelemetry.Toml.Spelling
import SearchTelemetry.Toml.Text
/-!
# Toml.Strings — what is quoted is read back

Whatever is in a string, its spelling is read as that string, and what stands behind the closing quotes is left
(`takeString?_quote`).  Two readers take double quotes apart, one for a single line and one for several, but what stands
for a character is the same for both (`Shown`).  Over several lines quotes also stand for themselves; there the text must
not seem to end early, nor late (`closing?_append`).
-/
namespace SearchTelemetry
namespace Toml

open Spelling

/-! ## What stands for a character -/

/-- An escape of a character, as it is written. -/
inductive Escaped (c : Char) : List Char → Prop where
  | letter {e : Char} : ofEscape? e = some c → Escaped c ['\\', e]
  | code : Numeral.hexDigits? ('0' :: '0' :: hexPair c.toNat) = some c.toNat →
      Escaped c ('\\' :: 'u' :: '0' :: '0' :: hexPair c.toNat)

/-- What is written for a character between double quotes, and how many quotes then stand in a row. -/
inductive Shown (lines : Bool) (quotes run : Nat) (c : Char) : List Char × Nat → Prop where
  | quote : c = '"' → run < quotes → Shown lines quotes run c ([c], run + 1)
  | itself : isPlain c = true ∨ (c = '\n' ∧ lines = true) → Shown lines quotes run c ([c], 0)
  | escaped {written : List Char} : Escaped c written → Shown lines quotes run c (written, 0)

theorem isLineChar_of_needsEscape {c : Char} (h : needsEscape c = false) (hn : c ≠ '\n') : isLineChar c = true := by
  simp only [needsEscape, Bool.or_eq_false_iff, Bool.and_eq_false_imp, Bool.and_eq_true, decide_eq_true_eq,
    decide_eq_false_iff_not, Decidable.not_not, ne_eq] at h
  simp only [isLineChar, Bool.or_eq_true, Bool.and_eq_true, decide_eq_true_eq, Char.le_def, UInt32.le_iff_toNat_le]
  show (c = '\t' ∨ 0x20 ≤ c.toNat ∧ c.toNat ≤ 0x7E) ∨ 0x80 ≤ c.toNat
  by_cases ht : c = '\t'
  · exact .inl (.inl ht)
  · have hlow : ¬c.toNat < 0x20 := fun hlt => hn (h.1 ⟨hlt, ht⟩)
    have hdel := h.2
    omega

theorem hexDigits?_hexPair : ∀ n < 128, Numeral.hexDigits? ('0' :: '0' :: hexPair n) = some n := by
  decide

theorem lt_of_needsEscape {c : Char} (h : needsEscape c = true) : c.toNat < 128 := by
  simp only [needsEscape, Bool.or_eq_true, Bool.and_eq_true, decide_eq_true_eq] at h
  omega

theorem shown_escapeChar (lines : Bool) (quotes run : Nat) (c : Char) :
    Shown lines quotes run c (escapeChar lines quotes run c) := by
  unfold escapeChar
  by_cases hquote : c = '"'
  · rw [if_pos hquote]
    by_cases hrun : run < quotes
    · rw [if_pos hrun]
      exact .quote hquote hrun
    · rw [if_neg hrun, hquote]
      exact .escaped (.letter rfl)
  rw [if_neg hquote]
  by_cases hline : c = '\n' ∧ lines = true
  · rw [if_pos hline]
    exact .itself (.inr hline)
  rw [if_neg hline]
  have hletter {d e : Char} (hc : c = d) (he : ofEscape? e = some d) : Shown lines quotes run c (['\\', e], 0) :=
    .escaped (.letter (hc ▸ he))
  split_ifs with h₁ h₂ h₃ h₄ h₅ h₆ h₇
  · exact hletter h₁ rfl
  · exact hletter h₂ rfl
  · exact hletter h₃ rfl
  · exact hletter h₄ rfl
  · exact hletter h₅ rfl
  · exact hletter h₆ rfl
  · exact .escaped (.code (hexDigits?_hexPair _ (lt_of_needsEscape h₇)))
  · refine .itself (.inl ?_)
    have hchar := isLineChar_of_needsEscape (Bool.not_eq_true _ ▸ h₇) h₄
    simp [isPlain, hchar, hquote, h₁]

theorem escape_cons (lines : Bool) (quotes run : Nat) (c : Char) (cs : List Char) :
    escape lines quotes run (c :: cs) =
      (escapeChar lines quotes run c).1 ++ escape lines quotes (escapeChar lines quotes run c).2 cs :=
  rfl

/-! ## On one line -/

theorem basic?_plain {c : Char} (h : isPlain c = true) (more : List Char) :
    basic? (c :: more) = (basic? more).map fun (t, rest) => (c :: t, rest) := by
  have hquote : c ≠ '"' := by rintro rfl; exact absurd h (by decide)
  have hslash : c ≠ '\\' := by rintro rfl; exact absurd h (by decide)
  rw [basic?, if_pos h]
  · exact hquote
  · intro d rest hc
    exact absurd hc hslash

theorem codePoint?_hexPair {c : Char} (h : Numeral.hexDigits? ('0' :: '0' :: hexPair c.toNat) = some c.toNat)
    (more : List Char) : codePoint? 4 ('0' :: '0' :: hexPair c.toNat ++ more) = some c := by
  have htake : ('0' :: '0' :: hexPair c.toNat ++ more).take 4 = '0' :: '0' :: hexPair c.toNat := rfl
  have hlen : ('0' :: '0' :: hexPair c.toNat).length = 4 := rfl
  simp only [codePoint?, htake, hlen, if_true, h, Option.bind_some, ofCodePoint?]
  have hvalid : c.toNat.isValidChar := c.valid
  rw [if_pos hvalid, Char.ofNat_toNat]

theorem basic?_escaped {c : Char} {written : List Char} (h : Escaped c written) (more : List Char) :
    basic? (written ++ more) = (basic? more).map fun (t, rest) => (c :: t, rest) := by
  cases h with
  | letter he => simp only [List.cons_append, List.nil_append, basic?, he]
  | code hn =>
    have hletter : ofEscape? 'u' = none := rfl
    have hdigits : codePointDigits? 'u' = some 4 := rfl
    have hdrop : ('0' :: '0' :: hexPair c.toNat ++ more).drop 4 = more := rfl
    simp only [List.cons_append, basic?, hletter, hdigits, Option.bind_some]
    rw [← List.cons_append, ← List.cons_append, codePoint?_hexPair hn, hdrop]
    rfl

/-- A text between double quotes on one line ends where it ended when it was written. -/
theorem basic?_escape (run : Nat) (cs rest : List Char) : basic? (escape false 0 run cs ++ '"' :: rest) = some (cs, rest) := by
  induction cs generalizing run with
  | nil => simp only [escape, List.nil_append, basic?]
  | cons c cs ih =>
    have hchar (more : List Char) : basic? ((escapeChar false 0 run c).1 ++ more) =
        (basic? more).map fun (t, rest) => (c :: t, rest) := by
      have hshown := shown_escapeChar false 0 run c
      generalize escapeChar false 0 run c = shown at hshown ⊢
      cases hshown with
      | quote _ hrun => exact absurd hrun (Nat.not_lt_zero run)
      | itself hplain => exact basic?_plain (hplain.resolve_right fun h => Bool.noConfusion h.2) more
      | escaped h => exact basic?_escaped h more
    rw [escape_cons, List.append_assoc, hchar, ih]
    rfl

theorem literal?_append {cs : List Char} (h : ∀ c ∈ cs, c ≠ '\'' ∧ isLineChar c = true) (rest : List Char) :
    literal? (cs ++ '\'' :: rest) = some (cs, rest) := by
  induction cs with
  | nil => rfl
  | cons c cs ih =>
    obtain ⟨hquote, hchar⟩ := h c List.mem_cons_self
    rw [List.cons_append, literal?, if_neg hquote, if_pos hchar, ih fun d hd => h d (List.mem_cons_of_mem c hd)]
    rfl

/-! ## Over several lines -/

/-- Where a text has at most two quotes at its front, three quotes close it only if there is nothing else in it. -/
theorem closing?_append {quote : Char} (cs : List Char) {rest : List Char} (hcs : (cs.takeWhile (· = quote)).length ≤ 2)
    (hrest : rest.head? ≠ some quote) :
    closing? quote (cs ++ quote :: quote :: quote :: rest) = if cs.all (· = quote) then some (cs, rest) else none := by
  have hthree : (quote :: quote :: quote :: rest).takeWhile (· = quote) = [quote, quote, quote] := by
    cases rest with
    | nil => simp
    | cons d rest =>
      have hd : d ≠ quote := fun h => hrest (congrArg some h)
      simp [hd]
  by_cases hall : cs.all (· = quote) = true
  · -- the quotes of the text and the closing ones are one run, of five at most
    have hmem : ∀ c ∈ cs, c = quote := by simpa using hall
    have hself : cs.takeWhile (· = quote) = cs := List.takeWhile_eq_self_iff.2 (by simpa using hmem)
    have hlen : cs.length ≤ 2 := hself ▸ hcs
    have hrun : ((cs ++ quote :: quote :: quote :: rest).takeWhile (· = quote)).length = cs.length + 3 := by
      rw [List.takeWhile_append, if_pos (by rw [hself]), hthree, List.length_append]
      rfl
    have hfive : min (cs.length + 3) 5 = cs.length + 3 := by omega
    have htwo : min (cs.length + 3 - 3) 2 = cs.length := by omega
    rw [if_pos hall, closing?, hrun, hfive, htwo, ← List.eq_replicate_of_mem hmem]
    simp
  · -- something else ends the run before three quotes have come together
    have hshort : (cs.takeWhile (· = quote)).length ≠ cs.length := by
      intro h
      have := List.takeWhile_eq_self_iff.1 ((List.takeWhile_prefix _).eq_of_length h)
      exact hall (List.all_eq_true.2 this)
    rw [if_neg hall, closing?, List.takeWhile_append, if_neg hshort]
    exact if_pos (by omega)

theorem Escaped.exists_cons {c : Char} {written : List Char} (h : Escaped c written) :
    ∃ more, written = '\\' :: more := by
  cases h with
  | letter _ => exact ⟨_, rfl⟩
  | code _ => exact ⟨_, rfl⟩

theorem takeWhile_escape (run : Nat) (hrun : run ≤ 2) (cs : List Char) :
    ((escape true 2 run cs).takeWhile (· = '"')).length + run ≤ 2 := by
  induction cs generalizing run with
  | nil => simpa [escape] using hrun
  | cons c cs ih =>
    rw [escape_cons]
    have hshown := shown_escapeChar true 2 run c
    generalize escapeChar true 2 run c = shown at hshown ⊢
    cases hshown with
    | quote hc hlt =>
      have := ih (run + 1) hlt
      subst hc
      simp only [List.cons_append, List.nil_append, List.takeWhile_cons, decide_true, if_true, List.length_cons]
      omega
    | itself h =>
      have hc : c ≠ '"' := by
        rintro rfl
        exact absurd h (by decide)
      simpa [hc] using hrun
    | escaped h =>
      obtain ⟨more, rfl⟩ := h.exists_cons
      simpa using hrun

/-- A text that shows as quotes alone is those quotes. -/
theorem escape_eq_of_all (run : Nat) (cs : List Char) (h : (escape true 2 run cs).all (· = '"') = true) :
    escape true 2 run cs = cs := by
  induction cs generalizing run with
  | nil => rfl
  | cons c cs ih =>
    rw [escape_cons] at h ⊢
    have hshown := shown_escapeChar true 2 run c
    generalize escapeChar true 2 run c = shown at hshown h ⊢
    rw [List.all_append, Bool.and_eq_true] at h
    rw [ih _ h.2]
    cases hshown with
    | quote _ _ => rfl
    | itself _ => rfl
    | escaped hescaped =>
      obtain ⟨more, rfl⟩ := hescaped.exists_cons
      exact absurd h.1 (by simp)

theorem closing?_of_ne {quote c : Char} (hc : c ≠ quote) (more : List Char) : closing? quote (c :: more) = none := by
  rw [closing?, List.takeWhile_cons_of_neg (by simpa using hc)]
  rfl

theorem basicLines?_of_closing {cs : List Char} {found : List Char × List Char} (h : closing? '"' cs = some found) :
    basicLines? cs = some found := by
  rw [basicLines?.eq_def, h]

theorem basicLines?_itself {c : Char} {more : List Char} (hclosing : closing? '"' (c :: more) = none)
    (hslash : c ≠ '\\') (hchar : c = '\n' ∨ isLineChar c = true) :
    basicLines? (c :: more) = (basicLines? more).map fun (t, rest) => (c :: t, rest) := by
  have hreturn : c ≠ '\r' := by
    rintro rfl
    exact absurd hchar (by decide)
  rw [basicLines?.eq_def, hclosing]
  simp only
  split
  · rename_i h
    cases h
  · rename_i h
    exact absurd (List.cons.inj h).1 hslash
  · rename_i h
    exact absurd (List.cons.inj h).1 hreturn
  · rename_i d _ _ _ h
    obtain ⟨rfl, rfl⟩ := List.cons.inj h
    simp [hchar]

theorem behindNewline?_of_ne {c : Char} (hfeed : c ≠ '\n') (hreturn : c ≠ '\r') (more : List Char) :
    behindNewline? (c :: more) = none := by
  unfold behindNewline?
  split
  · rename_i h
    exact absurd (List.cons.inj h).1 hfeed
  · rename_i h
    exact absurd (List.cons.inj h).1 hreturn
  · rfl

theorem behindContinuation?_of_ne {e : Char} (hspace : isSpace e = false) (hfeed : e ≠ '\n') (hreturn : e ≠ '\r')
    (more : List Char) : behindContinuation? (e :: more) = none := by
  have hskip : skipSpaces (e :: more) = e :: more := List.dropWhile_cons_of_neg (by simp [hspace])
  rw [behindContinuation?, hskip, behindNewline?_of_ne hfeed hreturn]
  rfl

theorem behindContinuation?_of_ofEscape? {e c : Char} (h : ofEscape? e = some c) (more : List Char) :
    behindContinuation? (e :: more) = none := by
  have hne (d : Char) (hd : ofEscape? d = none) : e ≠ d := by
    rintro rfl
    rw [h] at hd
    cases hd
  refine behindContinuation?_of_ne ?_ (hne '\n' rfl) (hne '\r' rfl) more
  simp [isSpace, hne ' ' rfl, hne '\t' rfl]

theorem basicLines?_escaped {c : Char} {written : List Char} (h : Escaped c written) (more : List Char) :
    basicLines? (written ++ more) = (basicLines? more).map fun (t, rest) => (c :: t, rest) := by
  cases h with
  | letter he =>
    rw [basicLines?.eq_def, List.cons_append, closing?_of_ne (by decide)]
    simp only [List.cons_append, List.nil_append]
    split
    · rename_i h
      rw [behindContinuation?_of_ofEscape? he] at h
      cases h
    · simp only [he]
  | code hn =>
    have hletter : ofEscape? 'u' = none := rfl
    have hdigits : codePointDigits? 'u' = some 4 := rfl
    have hdrop : ('0' :: '0' :: hexPair c.toNat ++ more).drop 4 = more := rfl
    rw [basicLines?.eq_def, List.cons_append, closing?_of_ne (by decide)]
    simp only [List.cons_append]
    split
    · rename_i h
      rw [behindContinuation?_of_ne (by decide) (by decide) (by decide)] at h
      cases h
    · simp only [hletter, hdigits, Option.bind_some]
      rw [← List.cons_append, ← List.cons_append, codePoint?_hexPair hn, hdrop]
      rfl

theorem isLineChar_of_isPlain {c : Char} (h : isPlain c = true) : isLineChar c = true := by
  simp only [isPlain, Bool.and_eq_true] at h
  exact h.1.1

/-- A text between three double quotes ends where it ended when it was written. -/
theorem basicLines?_escape (run : Nat) (hrun : run ≤ 2) (cs : List Char) {rest : List Char} (hrest : rest.head? ≠ some '"') :
    basicLines? (escape true 2 run cs ++ '"' :: '"' :: '"' :: rest) = some (cs, rest) := by
  -- a quote that shows itself may be the first of the closing ones, so each step first asks whether only quotes are left
  induction cs generalizing run with
  | nil => exact basicLines?_of_closing (closing?_append [] (Nat.zero_le 2) hrest)
  | cons c cs ih =>
    have hfew := takeWhile_escape run hrun (c :: cs)
    have hclosing := closing?_append (escape true 2 run (c :: cs)) (by omega) hrest
    by_cases hall : (escape true 2 run (c :: cs)).all (· = '"') = true
    · rw [if_pos hall] at hclosing
      rw [basicLines?_of_closing hclosing, escape_eq_of_all run _ hall]
    rw [if_neg hall] at hclosing
    have hshown := shown_escapeChar true 2 run c
    rw [escape_cons] at hclosing ⊢
    generalize escapeChar true 2 run c = shown at hshown hclosing ⊢
    cases hshown with
    | quote hc hlt =>
      simp only [List.cons_append, List.nil_append] at hclosing ⊢
      rw [basicLines?_itself hclosing (by rw [hc]; decide) (.inr (by rw [hc]; decide)), ih _ hlt]
      rfl
    | itself h =>
      have hslash : c ≠ '\\' := by
        rintro rfl
        exact absurd h (by decide)
      have hchar : c = '\n' ∨ isLineChar c = true := h.symm.imp And.left isLineChar_of_isPlain
      simp only [List.cons_append, List.nil_append] at hclosing ⊢
      rw [basicLines?_itself hclosing hslash hchar, ih _ (Nat.zero_le 2)]
      rfl
    | escaped h =>
      rw [List.append_assoc, basicLines?_escaped h, ih _ (Nat.zero_le 2)]
      rfl

theorem takeWhile_le_longestRun (c : Char) (run : Nat) (cs : List Char) :
    (cs.takeWhile (· = c)).length + run ≤ longestRun c run cs := by
  induction cs generalizing run with
  | nil => simp [longestRun]
  | cons d ds ih =>
    unfold longestRun
    by_cases hd : d = c
    · rw [if_pos hd, List.takeWhile_cons_of_pos (by simpa using hd), List.length_cons]
      have := ih (run + 1)
      omega
    · rw [if_neg hd, List.takeWhile_cons_of_neg (by simpa using hd), List.length_nil]
      omega

/-- The runs of a text are those of what stands behind its first character, and the one at its front. -/
theorem longestRun_tail (c d : Char) (run : Nat) (ds : List Char) : ∃ later, longestRun c later ds ≤ longestRun c run (d :: ds) := by
  by_cases hd : d = c
  · exact ⟨run + 1, by rw [longestRun, if_pos hd]⟩
  · exact ⟨0, by rw [longestRun, if_neg hd]; omega⟩

theorem literalLines?_of_closing {cs : List Char} {found : List Char × List Char} (h : closing? '\'' cs = some found) :
    literalLines? cs = some found := by
  rw [literalLines?.eq_def, h]

theorem literalLines?_itself {c : Char} {more : List Char} (hclosing : closing? '\'' (c :: more) = none)
    (hchar : c = '\n' ∨ isLineChar c = true) :
    literalLines? (c :: more) = (literalLines? more).map fun (t, rest) => (c :: t, rest) := by
  have hreturn : c ≠ '\r' := by
    rintro rfl
    exact absurd hchar (by decide)
  rw [literalLines?.eq_def, hclosing]
  simp only
  split
  · rename_i h
    cases h
  · rename_i h
    exact absurd (List.cons.inj h).1 hreturn
  · rename_i h
    obtain ⟨rfl, rfl⟩ := List.cons.inj h
    simp [hchar]

theorem literalLines?_append (run : Nat) {cs rest : List Char} (hrun : longestRun '\'' run cs ≤ 2)
    (h : ∀ c ∈ cs, c = '\n' ∨ isLineChar c = true) (hrest : rest.head? ≠ some '\'') :
    literalLines? (cs ++ '\'' :: '\'' :: '\'' :: rest) = some (cs, rest) := by
  induction cs generalizing run with
  | nil => exact literalLines?_of_closing (closing?_append [] (Nat.zero_le 2) hrest)
  | cons c cs ih =>
    have hfew := takeWhile_le_longestRun '\'' run (c :: cs)
    have hclosing := closing?_append (c :: cs) (by omega) hrest
    by_cases hall : (c :: cs).all (· = '\'') = true
    · rw [if_pos hall] at hclosing
      exact literalLines?_of_closing hclosing
    · rw [if_neg hall] at hclosing
      obtain ⟨later, hlater⟩ := longestRun_tail '\'' c run cs
      have htail := ih later (hlater.trans hrun) fun d hd => h d (List.mem_cons_of_mem c hd)
      rw [List.cons_append] at hclosing ⊢
      rw [literalLines?_itself hclosing (h c List.mem_cons_self), htail]
      rfl

/-! ## All spellings -/

theorem shows_of_ofText {spelling : Spelling} {cs : List Char} (h : ofText cs = spelling) (hbasic : spelling ≠ basic)
    (hlines : spelling ≠ basicLines) : spelling.shows cs = true := by
  unfold ofText at h
  split at h
  · rename_i hfind
    subst h
    have hshows := List.find?_some hfind
    exact hshows
  · split at h
    · exact absurd h.symm hlines
    · exact absurd h.symm hbasic

/-- A text that is shown as it is has no character in it that needs an escape. -/
theorem chars_of_shows {spelling : Spelling} {cs : List Char} (h : spelling.shows cs = true) :
    ∀ c ∈ cs, c = '\n' ∨ isLineChar c = true := by
  intro c hc
  simp only [shows, Bool.and_eq_true, Bool.not_eq_true', List.any_eq_false, Bool.not_eq_true] at h
  by_cases hfeed : c = '\n'
  · exact .inl hfeed
  · exact .inr (isLineChar_of_needsEscape (h.1 c hc) hfeed)

theorem dropNewline_opening {cs more : List Char} (h : '\n' ∉ cs → behindNewline? more = none) :
    dropNewline (opening cs ++ more) = more := by
  unfold opening
  by_cases hfeed : '\n' ∈ cs
  · rw [if_pos (List.contains_iff_mem.2 hfeed)]
    rfl
  · rw [if_neg fun h => hfeed (List.contains_iff_mem.1 h), List.nil_append, dropNewline, h hfeed]
    rfl

theorem behindNewline?_of_isLineChar {c : Char} (h : isLineChar c = true) (more : List Char) :
    behindNewline? (c :: more) = none := by
  refine behindNewline?_of_ne ?_ ?_ more
  · rintro rfl
    exact absurd h (by decide)
  · rintro rfl
    exact absurd h (by decide)

theorem takeString?_basic {more : List Char} (h : ∀ behind, more ≠ '"' :: '"' :: behind) :
    takeString? ('"' :: more) = (basic? more).map fun (t, rest) => (String.ofList t, rest) := by
  unfold takeString?
  split
  · rename_i hmore
    exact absurd (List.cons.inj hmore).2 (h _)
  · rename_i hmore
    cases hmore
  · rfl

theorem takeString?_literal {more : List Char} (h : ∀ behind, more ≠ '\'' :: '\'' :: behind) :
    takeString? ('\'' :: more) = (literal? more).map fun (t, rest) => (String.ofList t, rest) := by
  unfold takeString?
  split
  · rename_i hmore
    cases hmore
  · rename_i hmore
    exact absurd (List.cons.inj hmore).2 (h _)
  · rfl

theorem takeString?_basicLines {more behind : List Char} (h : dropNewline more = behind) :
    takeString? ('"' :: '"' :: '"' :: more) = (basicLines? behind).map fun (t, rest) => (String.ofList t, rest) := by
  rw [← h]
  rfl

theorem takeString?_literalLines {more behind : List Char} (h : dropNewline more = behind) :
    takeString? ('\'' :: '\'' :: '\'' :: more) = (literalLines? behind).map fun (t, rest) => (String.ofList t, rest) := by
  rw [← h]
  rfl

/-- On one line no quote of a text stands for itself. -/
theorem escape_ne_quote (cs : List Char) {rest : List Char} (hrest : rest.head? ≠ some '"') (behind : List Char) :
    escape false 0 0 cs ++ '"' :: rest ≠ '"' :: '"' :: behind := by
  cases cs with
  | nil =>
    intro h
    exact hrest (congrArg List.head? (List.cons.inj h).2)
  | cons c cs =>
    rw [escape_cons]
    have hshown := shown_escapeChar false 0 0 c
    generalize escapeChar false 0 0 c = shown at hshown ⊢
    cases hshown with
    | quote _ hrun => exact absurd hrun (Nat.not_lt_zero 0)
    | itself h =>
      intro heq
      have hc : c = '"' := (List.cons.inj heq).1
      rw [hc] at h
      exact absurd h (by decide)
    | escaped h =>
      obtain ⟨more, rfl⟩ := h.exists_cons
      intro heq
      exact absurd (List.cons.inj heq).1 (by decide)

/-- Only a line feed of the text itself stands at the front of what is written for it. -/
theorem behindNewline?_escape {cs : List Char} (h : '\n' ∉ cs) (rest : List Char) :
    behindNewline? (escape true 2 0 cs ++ '"' :: rest) = none := by
  cases cs with
  | nil => rfl
  | cons c cs =>
    rw [escape_cons]
    have hshown := shown_escapeChar true 2 0 c
    generalize escapeChar true 2 0 c = shown at hshown ⊢
    cases hshown with
    | quote hc _ => exact behindNewline?_of_isLineChar (by rw [hc]; decide) _
    | itself hitself =>
      have hc : c ≠ '\n' := fun hc => h (hc ▸ List.mem_cons_self)
      exact behindNewline?_of_isLineChar (isLineChar_of_isPlain (hitself.resolve_right fun h => hc h.1)) _
    | escaped hescaped =>
      obtain ⟨more, rfl⟩ := hescaped.exists_cons
      rfl

theorem behindNewline?_append {cs : List Char} (hchars : ∀ c ∈ cs, c = '\n' ∨ isLineChar c = true) (h : '\n' ∉ cs)
    (rest : List Char) : behindNewline? (cs ++ '\'' :: rest) = none := by
  cases cs with
  | nil => rfl
  | cons c cs =>
    have hc : c ≠ '\n' := fun hc => h (hc ▸ List.mem_cons_self)
    exact behindNewline?_of_isLineChar ((hchars c List.mem_cons_self).resolve_left hc) _

theorem takeString?_write (cs : List Char) {rest : List Char} (hdouble : rest.head? ≠ some '"')
    (hsingle : rest.head? ≠ some '\'') : takeString? ((ofText cs).write cs ++ rest) = some (String.ofList cs, rest) := by
  cases hspelling : ofText cs with
  | basic =>
    simp only [write, List.cons_append, List.append_assoc, List.nil_append]
    rw [takeString?_basic (escape_ne_quote cs hdouble), basic?_escape]
    rfl
  | literal =>
    have hshows := shows_of_ofText hspelling (by decide) (by decide)
    obtain ⟨hquote, hfeed⟩ : '\'' ∉ cs ∧ '\n' ∉ cs := by
      simpa [shows] using (Bool.and_eq_true_iff.1 hshows).2
    have hchars : ∀ c ∈ cs, c ≠ '\'' ∧ isLineChar c = true := fun c hc =>
      ⟨fun h => hquote (h ▸ hc), (chars_of_shows hshows c hc).resolve_left fun h => hfeed (h ▸ hc)⟩
    have hfirst : ∀ behind, cs ++ '\'' :: rest ≠ '\'' :: '\'' :: behind := by
      intro behind heq
      cases cs with
      | nil => exact hsingle (congrArg List.head? (List.cons.inj heq).2)
      | cons c cs => exact (hchars c List.mem_cons_self).1 (List.cons.inj heq).1
    simp only [write, List.cons_append, List.append_assoc, List.nil_append]
    rw [takeString?_literal hfirst, literal?_append hchars]
    rfl
  | basicLines =>
    simp only [write, List.cons_append, List.append_assoc, List.nil_append]
    rw [takeString?_basicLines (dropNewline_opening fun h => behindNewline?_escape h _),
      basicLines?_escape 0 (Nat.zero_le 2) cs hdouble]
    rfl
  | literalLines =>
    have hshows := shows_of_ofText hspelling (by decide) (by decide)
    have hruns : longestRun '\'' 0 cs ≤ 2 := by
      simpa [shows] using (Bool.and_eq_true_iff.1 hshows).2
    have hchars := chars_of_shows hshows
    simp only [write, List.cons_append, List.append_assoc, List.nil_append]
    rw [takeString?_literalLines (dropNewline_opening fun h => behindNewline?_append hchars h _),
      literalLines?_append 0 hruns hchars hsingle]
    rfl

theorem write_eq_cons (spelling : Spelling) (cs : List Char) :
    ∃ q more, spelling.write cs = q :: more ∧ (q = '"' ∨ q = '\'') := by
  cases spelling with
  | basic => exact ⟨'"', _, rfl, .inl rfl⟩
  | literal => exact ⟨'\'', _, rfl, .inr rfl⟩
  | basicLines => exact ⟨'"', _, rfl, .inl rfl⟩
  | literalLines => exact ⟨'\'', _, rfl, .inr rfl⟩

theorem toList_quote (s : String) : (quote s).toList = (ofText s.toList).write s.toList :=
  String.toList_ofList

theorem quote_eq_cons (s : String) : ∃ q more, (quote s).toList = q :: more ∧ (q = '"' ∨ q = '\'') := by
  rw [toList_quote]
  exact write_eq_cons _ _

/-- **A quoted string is read back**, whatever is in it; only quotes right behind it could be taken for a part of it. -/
theorem takeString?_quote (s : String) {rest : List Char} (hdouble : rest.head? ≠ some '"')
    (hsingle : rest.head? ≠ some '\'') : takeString? ((quote s).toList ++ rest) = some (s, rest) := by
  rw [toList_quote, takeString?_write s.toList hdouble hsingle, String.ofList_toList]

/-- Three quotes of either kind over two lines: only the third in a row is escaped, and the text may end with one. -/
example : quote "\x27\x27\x27\n\"\"\"\"" = "\"\"\"\n\x27\x27\x27\n\"\"\\\"\"\"\"\"" := by decide

end Toml
end SearchTelemetry
