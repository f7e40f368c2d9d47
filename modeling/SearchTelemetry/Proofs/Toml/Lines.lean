import SearchTelemetry.Proofs.Toml.Strings
import SearchTelemetry.Toml.Document
import SearchTelemetry.Toml.Layout
/-!
# Toml.Lines — what is written line by line is read line by line

A line that is written holds one statement, or none (`Line.statement?`), and a reader finds just that on it and goes on
with the next line (`takeLine?_text`).  So the statements of a file are those of its lines (`fields?_render`).
-/
namespace SearchTelemetry
namespace Toml

/-! ## Lines without a statement -/

theorem skipSpaces_cons {c : Char} (h : isSpace c = false) (cs : List Char) : skipSpaces (c :: cs) = c :: cs :=
  List.dropWhile_cons_of_neg (by simp [h])

theorem skipComment_append {remark : List Char} (h : ∀ c ∈ remark, isLineChar c = true) (more : List Char) :
    skipComment ('#' :: remark ++ '\n' :: more) = '\n' :: more := by
  rw [List.cons_append, skipComment, List.dropWhile_append_of_pos h]
  rfl

theorem behindLineOrEnd?_newline (more : List Char) : behindLineOrEnd? ('\n' :: more) = some more :=
  rfl

/-- A remark, spaces in front of it, belongs to the end of its line. -/
theorem behindLineOrEnd?_remark {spaces remark : List Char} (hspaces : ∀ c ∈ spaces, isSpace c = true)
    (h : ∀ c ∈ remark, isLineChar c = true) (more : List Char) :
    behindLineOrEnd? (spaces ++ ('#' :: remark ++ '\n' :: more)) = some more := by
  have hskip : skipSpaces (spaces ++ ('#' :: remark ++ '\n' :: more)) = '#' :: remark ++ '\n' :: more := by
    rw [skipSpaces, List.dropWhile_append_of_pos hspaces]
    rfl
  rw [behindLineOrEnd?, hskip, skipComment_append h]
  rfl

/-- A character that begins a statement. -/
def Begins (c : Char) : Prop :=
  isNameChar c = true ∨ c = '['

theorem Begins.ne {c d : Char} (h : Begins c) (hd : isNameChar d = false) (hbracket : d ≠ '[') : c ≠ d := by
  rintro rfl
  rcases h with h | h
  · rw [hd] at h
    cases h
  · exact hbracket h

theorem Begins.isSpace {c : Char} (h : Begins c) : isSpace c = false := by
  simp [Toml.isSpace, h.ne (d := ' ') (by decide) (by decide), h.ne (d := '\t') (by decide) (by decide)]

theorem behindLineOrEnd?_of_begins {c : Char} (h : Begins c) (cs : List Char) : behindLineOrEnd? (c :: cs) = none := by
  have hcomment : skipComment (c :: cs) = c :: cs := by
    unfold skipComment
    split
    · rename_i heq
      exact absurd (List.cons.inj heq).1 (h.ne (by decide) (by decide))
    · rfl
  rw [behindLineOrEnd?, skipSpaces_cons h.isSpace, hcomment]
  simp only [List.isEmpty_cons, Bool.false_eq_true, if_false]
  exact behindNewline?_of_ne (h.ne (by decide) (by decide)) (h.ne (by decide) (by decide)) cs

/-! ## Names -/

/-- A name that needs no quotes. -/
structure IsName (name : String) : Prop where
  ne_nil : name.toList ≠ []
  chars : ∀ c ∈ name.toList, isNameChar c = true

namespace IsName

variable {name : String} (h : IsName name)

include h

theorem exists_head? (more : List Char) : ∃ c, (name.toList ++ more).head? = some c ∧ isNameChar c = true := by
  obtain ⟨c, cs, hcs⟩ := List.exists_cons_of_ne_nil h.ne_nil
  exact ⟨c, by rw [hcs]; rfl, h.chars c (hcs ▸ List.mem_cons_self)⟩

theorem head?_ne {d : Char} (hd : isNameChar d = false) (more : List Char) : (name.toList ++ more).head? ≠ some d := by
  obtain ⟨c, hhead, hc⟩ := h.exists_head? more
  rw [hhead]
  rintro ⟨⟩
  rw [hc] at hd
  cases hd

theorem begins (more : List Char) : ∃ c cs, name.toList ++ more = c :: cs ∧ Begins c := by
  obtain ⟨c, hhead, hc⟩ := h.exists_head? more
  obtain ⟨cs, hcs⟩ := List.head?_eq_some_iff.1 hhead
  exact ⟨c, cs, hcs, .inl hc⟩

end IsName

theorem takeLineString?_of_head? {cs : List Char} (hdouble : cs.head? ≠ some '"') (hsingle : cs.head? ≠ some '\'') :
    takeLineString? cs = none := by
  unfold takeLineString?
  split
  · exact absurd rfl hdouble
  · exact absurd rfl hsingle
  · rfl

theorem takeName?_append {name : String} (h : IsName name) {rest : List Char}
    (hrest : ∀ c ∈ rest.head?, isNameChar c = false) : takeName? (name.toList ++ rest) = some (name, rest) := by
  have hbare := takeLineString?_of_head? (h.head?_ne (by decide) rest) (h.head?_ne (by decide) rest)
  simp only [takeName?, hbare, takeWhile_append_stop h.chars hrest, List.isEmpty_iff, h.ne_nil, if_false,
    String.ofList_toList, List.drop_left]

theorem takeKey?_append {name : String} (h : IsName name) {rest : List Char}
    (hrest : ∀ c ∈ rest.head?, isNameChar c = false) (hdot : (skipSpaces rest).head? ≠ some '.') :
    takeKey? (name.toList ++ rest) = some (([], name), skipSpaces rest) := by
  have hskip : skipSpaces (name.toList ++ rest) = name.toList ++ rest := by
    obtain ⟨c, cs, hcs, hc⟩ := h.begins rest
    rw [hcs, skipSpaces_cons hc.isSpace]
  have hnames : takeNames? maxNames (name.toList ++ rest) = some ([name], skipSpaces rest) := by
    rw [maxNames, takeNames?, hskip, takeName?_append h hrest, Option.bind_some]
    simp only
    split
    · rename_i heq
      exact absurd (congrArg List.head? heq) hdot
    · rfl
  rw [takeKey?, hnames]
  rfl

/-! ## Numbers -/

namespace Scalar

theorem isTokenChar_of_isDigit {c : Char} (h : Numeral.isDigit c = true) : isTokenChar c = true := by
  rw [Numeral.isDigit_eq] at h
  simp [isTokenChar, Char.isAlphanum, h]

theorem ofDigits_digits (n : Nat) : ofDigits 10 (Numeral.digits n) = n := by
  suffices h : ∀ ds : List Char, (∀ c ∈ ds, Numeral.isDigit c = true) → ∀ acc : Nat,
      ds.foldl (fun n c => n * 10 + (Numeral.hexValue? c).getD 0) acc = Nat.ofDigitChars 10 ds acc by
    exact (h _ (fun c => Numeral.isDigit_of_mem_digits) 0).trans (Numeral.ofDigitChars_digits n)
  intro ds
  induction ds with
  | nil => exact fun _ _ => rfl
  | cons c ds ih =>
    intro h acc
    obtain ⟨hl, hh⟩ := Numeral.le_of_isDigit (h c List.mem_cons_self)
    have hvalue : Numeral.hexValue? c = some (c.toNat - 0x30) := by rw [Numeral.hexValue?_eq, if_pos ⟨hl, hh⟩]
    rw [List.foldl_cons, hvalue, ih (fun d hd => h d (List.mem_cons_of_mem c hd)), Nat.ofDigitChars_cons, Nat.mul_comm]
    rfl

theorem decimalDigits?_digits (n : Nat) : decimalDigits? (Numeral.digits n) = some (Numeral.digits n) := by
  have hunderscore : '_' ∉ Numeral.digits n := fun h => absurd (Numeral.isDigit_of_mem_digits h) (by decide)
  have hall : (Numeral.digits n).all Numeral.isDigit = true :=
    List.all_eq_true.2 fun c hc => Numeral.isDigit_of_mem_digits hc
  have hkeep : (Numeral.digits n).filter (· ≠ '_') = Numeral.digits n := by
    refine List.filter_eq_self.2 fun c hc => ?_
    simp only [ne_eq, decide_not, Bool.not_eq_true', decide_eq_false_iff_not]
    rintro rfl
    exact hunderscore hc
  have hdigits : digits? Numeral.isDigit (Numeral.digits n) = some (Numeral.digits n) := by
    rw [digits?, List.splitOn_eq_singleton hunderscore, hkeep]
    simp [Numeral.digits_ne_nil, hall]
  have hzero : (Numeral.digits n).length = 1 ∨ (Numeral.digits n).head? ≠ some '0' :=
    Decidable.or_iff_not_imp_right.2 fun h => Numeral.length_eq_one_of_head?_digits (Decidable.not_not.1 h)
  rw [decimalDigits?, hdigits]
  simp [Option.filter, hzero]

/-- A number in decimal digits is of no other base. -/
theorem integer?_of_decimal {cs : List Char} (h : ∀ d ds, cs = '0' :: d :: ds → Numeral.isDigit d = true) :
    integer? cs = (((decimalDigits? (splitSign cs).2).map fun ds =>
      if (splitSign cs).1 then -(ofDigits 10 ds : Int) else ofDigits 10 ds).filter fun i =>
        Int64.minValue.toInt ≤ i && i ≤ Int64.maxValue.toInt) := by
  unfold integer?
  split
  · rename_i ds
    exact absurd (h 'x' ds rfl) (by decide)
  · rename_i ds
    exact absurd (h 'o' ds rfl) (by decide)
  · rename_i ds
    exact absurd (h 'b' ds rfl) (by decide)
  · rfl

theorem splitSign_digits (n : Nat) : splitSign (Numeral.digits n) = (false, Numeral.digits n) := by
  unfold splitSign
  split
  · rename_i ds h
    exact absurd h (Numeral.digits_ne_cons (by decide) n ds)
  · rename_i ds h
    exact absurd h (Numeral.digits_ne_cons (by decide) n ds)
  · rfl

theorem integer?_intDigits {i : Int} (hl : Int64.minValue.toInt ≤ i) (hh : i ≤ Int64.maxValue.toInt) :
    integer? (Numeral.intDigits i) = some i := by
  have hfits : ∀ j, j = i → (some j).filter (fun j => Int64.minValue.toInt ≤ j && j ≤ Int64.maxValue.toInt) = some i := by
    rintro _ rfl
    simp only [Option.filter, hl, hh, decide_true, Bool.and_self, if_true]
  by_cases hneg : i < 0
  · rw [Numeral.intDigits, if_pos hneg, integer?_of_decimal fun d ds h => absurd (List.cons.inj h).1 (by decide)]
    simp only [splitSign, decimalDigits?_digits, Option.map_some, if_true, ofDigits_digits]
    exact hfits _ (by omega)
  · have hdecimal : ∀ d ds, Numeral.digits i.natAbs = '0' :: d :: ds → Numeral.isDigit d = true := fun d ds h =>
      Numeral.isDigit_of_mem_digits (n := i.natAbs) (by rw [h]; simp)
    rw [Numeral.intDigits, if_neg hneg, integer?_of_decimal hdecimal, splitSign_digits]
    simp only [decimalDigits?_digits, Option.map_some, Bool.false_eq_true, if_false, ofDigits_digits]
    exact hfits _ (by omega)

/-- A token at the end of a line is read as what it is. -/
theorem take?_append {token : List Char} {v : Value} (htoken : ∀ c ∈ token, isTokenChar c = true)
    (hv : ofToken? token = some v) (more : List Char) : take? (token ++ '\n' :: more) = some (v, '\n' :: more) := by
  have htake : takeToken (token ++ '\n' :: more) = (token, '\n' :: more) := by
    have hstop : (token ++ '\n' :: more).takeWhile isTokenChar = token :=
      takeWhile_append_stop htoken fun c hc => by cases hc; rfl
    simp only [takeToken, hstop, List.drop_left]
    rfl
  rw [take?, htake]
  simp only [hv, Option.map_some]

theorem isTokenChar_of_mem_intDigits {i : Int} {c : Char} (hc : c ∈ Numeral.intDigits i) : isTokenChar c = true := by
  rcases Numeral.of_mem_intDigits hc with rfl | hc
  · decide
  · exact isTokenChar_of_isDigit hc

theorem ofToken?_intDigits {i : Int} (hl : Int64.minValue.toInt ≤ i) (hh : i ≤ Int64.maxValue.toInt) :
    ofToken? (Numeral.intDigits i) = some (.integer i) := by
  have hword {c : Char} (hc : c ≠ '-') (hd : Numeral.isDigit c = false) (cs : List Char) : Numeral.intDigits i ≠ c :: cs := by
    intro h
    rcases Numeral.of_mem_intDigits (i := i) (h ▸ List.mem_cons_self) with hm | hm
    · exact hc hm
    · rw [hd] at hm
      cases hm
  rw [ofToken?, if_neg (hword (by decide) (by decide) _), if_neg (hword (by decide) (by decide) _),
    integer?_intDigits hl hh]

/-- The word for a truth value. -/
theorem ofToken?_boolean (b : Bool) : ofToken? (if b then "true" else "false").toList = some (.boolean b) := by
  cases b <;> rfl

end Scalar

/-! ## Values -/

theorem takeValue?_of_head? {cs : List Char} (hbracket : cs.head? ≠ some '[') (hbrace : cs.head? ≠ some '{') (depth : Nat) :
    takeValue? depth cs = match takeString? cs with
      | some (s, rest) => some (.string s, rest)
      | none => Scalar.take? cs := by
  unfold takeValue?
  split
  · exact absurd rfl hbracket
  · exact absurd rfl hbrace
  · rfl

theorem takeValue?_quote (s : String) {rest : List Char} (hdouble : rest.head? ≠ some '"') (hsingle : rest.head? ≠ some '\'')
    (depth : Nat) : takeValue? depth ((quote s).toList ++ rest) = some (.string s, rest) := by
  obtain ⟨q, more, hquote, hq⟩ := quote_eq_cons s
  have hhead {d : Char} (h₁ : '"' ≠ d) (h₂ : '\'' ≠ d) : ((quote s).toList ++ rest).head? ≠ some d := by
    rw [hquote]
    intro h
    have hd : q = d := Option.some.inj h
    rcases hq with rfl | rfl
    · exact h₁ hd
    · exact h₂ hd
  rw [takeValue?_of_head? (hhead (by decide) (by decide)) (hhead (by decide) (by decide)), takeString?_quote s hdouble hsingle]

theorem takeString?_of_head? {cs : List Char} (hdouble : cs.head? ≠ some '"') (hsingle : cs.head? ≠ some '\'') :
    takeString? cs = none := by
  unfold takeString?
  split
  · exact absurd rfl hdouble
  · exact absurd rfl hsingle
  · exact takeLineString?_of_head? hdouble hsingle

theorem takeValue?_token {token : List Char} (hne : token ≠ []) (htoken : ∀ c ∈ token, Scalar.isTokenChar c = true)
    (rest : List Char) (depth : Nat) : takeValue? depth (token ++ rest) = Scalar.take? (token ++ rest) := by
  obtain ⟨c, cs, hcs⟩ := List.exists_cons_of_ne_nil hne
  have hhead {d : Char} (hd : Scalar.isTokenChar d = false) : (token ++ rest).head? ≠ some d := by
    rw [hcs]
    intro h
    have hc := htoken c (hcs ▸ List.mem_cons_self)
    rw [show c = d from Option.some.inj h, hd] at hc
    cases hc
  rw [takeValue?_of_head? (hhead rfl) (hhead rfl), takeString?_of_head? (hhead rfl) (hhead rfl)]

/-! ## Lines -/

/-- What a written line has on it. -/
def Line.statement? : Line → Option Statement
  | blank | comment _ => none
  | header name => some (.header ([], name))
  | string name value _ => some (.setting ([], name) (.string value))
  | integer name value => some (.setting ([], name) (.integer value))
  | boolean name value => some (.setting ([], name) (.boolean value))

/-- A line that a reader can take: its names need no quotes, its comments stay on it and its numbers fit. -/
def Line.Sound : Line → Prop
  | blank => True
  | comment text => ∀ c ∈ text.toList, isLineChar c = true
  | header name => IsName name
  | string name _ remark => IsName name ∧ ∀ c ∈ remark.toList, isLineChar c = true
  | integer name value => IsName name ∧ Int64.minValue.toInt ≤ value ∧ value ≤ Int64.maxValue.toInt
  | boolean name _ => IsName name

theorem takeLine?_of_begins {c : Char} {cs : List Char} (h : Begins c) :
    takeLine? (c :: cs) = (takeStatement? (c :: cs)).bind fun (st, rest) =>
      (behindLineOrEnd? rest).map fun rest => (some st, rest) := by
  rw [takeLine?, behindLineOrEnd?_of_begins h, skipSpaces_cons h.isSpace]

theorem takeLine?_header {name : String} (h : IsName name) (more : List Char) :
    takeLine? ('[' :: (name.toList ++ ']' :: '\n' :: more)) = some (some (.header ([], name)), more) := by
  have hkey : takeKey? (name.toList ++ ']' :: '\n' :: more) = some (([], name), ']' :: '\n' :: more) :=
    takeKey?_append h (fun c hc => by cases hc; rfl) (show some ']' ≠ some '.' by decide)
  rw [takeLine?_of_begins (.inr rfl)]
  unfold takeStatement?
  split
  · -- a name does not begin with a bracket of its own
    rename_i heq
    exact absurd (congrArg List.head? (List.cons.inj heq).2) (h.head?_ne (by decide) _)
  · rename_i heq
    obtain rfl := (List.cons.inj heq).2
    rw [hkey]
    rfl
  · rename_i hno
    exact absurd rfl (hno _)

theorem takeStatement?_of_head? {cs : List Char} (h : cs.head? ≠ some '[') :
    takeStatement? cs = (takePair? (takeValue? maxDepth) cs).map fun ((key, v), rest) => (.setting key v, rest) := by
  unfold takeStatement?
  split
  · exact absurd rfl h
  · exact absurd rfl h
  · rfl

theorem takeLine?_setting {name : String} {v : Value} {written rest more : List Char} (h : IsName name)
    (hspace : ∀ c ∈ written.head?, isSpace c = false) (hv : takeValue? maxDepth written = some (v, rest))
    (hend : behindLineOrEnd? rest = some more) :
    takeLine? (name.toList ++ ' ' :: '=' :: ' ' :: written) = some (some (.setting ([], name) v), more) := by
  have hkey : takeKey? (name.toList ++ ' ' :: '=' :: ' ' :: written) = some (([], name), '=' :: ' ' :: written) :=
    takeKey?_append h (fun c hc => by cases hc; rfl) (show some '=' ≠ some '.' by decide)
  have hskip : skipSpaces (' ' :: written) = written := by
    cases written with
    | nil => rfl
    | cons c cs => exact skipSpaces_cons (hspace c rfl) cs
  have hpair : takePair? (takeValue? maxDepth) (name.toList ++ ' ' :: '=' :: ' ' :: written) = some ((([], name), v), rest) := by
    have hequals : behind? '=' ('=' :: ' ' :: written) = some (' ' :: written) := by simp [behind?]
    simp only [takePair?, hkey, Option.bind_some, hequals, hskip, hv, Option.map_some]
  have hstatement := takeStatement?_of_head? (h.head?_ne (by decide) (' ' :: '=' :: ' ' :: written))
  rw [hpair] at hstatement
  obtain ⟨c, cs, hcs, hc⟩ := h.begins (' ' :: '=' :: ' ' :: written)
  rw [hcs] at hstatement ⊢
  rw [takeLine?_of_begins hc, hstatement]
  simp only [Option.map_some, Option.bind_some, hend]

/-- A setting whose value is a token. -/
theorem takeLine?_token {name : String} {token : List Char} {v : Value} (h : IsName name)
    (htoken : ∀ c ∈ token, Scalar.isTokenChar c = true) (hv : Scalar.ofToken? token = some v) (more : List Char) :
    takeLine? (name.toList ++ ' ' :: '=' :: ' ' :: (token ++ '\n' :: more)) =
      some (some (.setting ([], name) v), more) := by
  have hne : token ≠ [] := by
    rintro rfl
    have hnone : Scalar.ofToken? [] = none := by decide
    rw [hnone] at hv
    cases hv
  have hspace : ∀ c ∈ (token ++ '\n' :: more).head?, isSpace c = false := by
    obtain ⟨d, ds, rfl⟩ := List.exists_cons_of_ne_nil hne
    intro c hc
    cases hc
    have hd := htoken d List.mem_cons_self
    rw [Bool.eq_false_iff]
    intro hspace
    simp only [isSpace, Bool.or_eq_true, decide_eq_true_eq] at hspace
    rcases hspace with rfl | rfl <;> exact absurd hd (by decide)
  have hvalue := (takeValue?_token hne htoken ('\n' :: more) maxDepth).trans (Scalar.take?_append htoken hv more)
  exact takeLine?_setting h hspace hvalue (behindLineOrEnd?_newline more)

/-- **A reader finds on a line what was written on it**, and goes on behind it. -/
theorem takeLine?_text {l : Line} (h : l.Sound) (more : List Char) :
    takeLine? (l.text.toList ++ '\n' :: more) = some (l.statement?, more) := by
  cases l with
  | blank => rfl
  | comment text =>
    have hremark : ∀ c ∈ ' ' :: text.toList, isLineChar c = true := List.forall_mem_cons.2 ⟨rfl, h⟩
    have hend := behindLineOrEnd?_remark (List.forall_mem_nil _) hremark more
    have htext : (Line.comment text).text.toList ++ '\n' :: more = '#' :: (' ' :: text.toList) ++ '\n' :: more := by
      rw [Line.text, String.toList_append]
      rfl
    rw [htext, takeLine?, ← List.nil_append ('#' :: (' ' :: text.toList) ++ '\n' :: more), hend]
    rfl
  | header name =>
    have hline := takeLine?_header h more
    have htext : (Line.header name).text.toList ++ '\n' :: more = '[' :: (name.toList ++ ']' :: '\n' :: more) := by
      simp [Line.text]
    rw [htext, hline]
    rfl
  | string name value remark =>
    obtain ⟨hname, hremark⟩ := h
    obtain ⟨rest, htext, hend, hdouble, hsingle⟩ : ∃ rest, (Line.string name value remark).text.toList ++ '\n' :: more =
          name.toList ++ ' ' :: '=' :: ' ' :: ((quote value).toList ++ rest) ∧ behindLineOrEnd? rest = some more ∧
          rest.head? ≠ some '"' ∧ rest.head? ≠ some '\'' := by
      by_cases hempty : remark.isEmpty = true
      · refine ⟨'\n' :: more, ?_, rfl, ?_⟩
        · simp [Line.text, hempty]
        · simp
      · have hspaced : ∀ c ∈ ' ' :: remark.toList, isLineChar c = true := List.forall_mem_cons.2 ⟨rfl, hremark⟩
        refine ⟨[' ', ' '] ++ ('#' :: (' ' :: remark.toList) ++ '\n' :: more), ?_, ?_, ?_⟩
        · simp [Line.text, hempty]
        · exact behindLineOrEnd?_remark (List.all_eq_true.1 (by decide)) hspaced more
        · simp
    have hspace : ∀ c ∈ ((quote value).toList ++ rest).head?, isSpace c = false := by
      obtain ⟨q, _, hquote, hq⟩ := quote_eq_cons value
      rw [hquote]
      rintro c hc
      cases hc
      rcases hq with rfl | rfl <;> rfl
    rw [htext, takeLine?_setting hname hspace (takeValue?_quote value hdouble hsingle maxDepth) hend]
    rfl
  | integer name value =>
    obtain ⟨hname, hl, hh⟩ := h
    have htext : (Line.integer name value).text.toList ++ '\n' :: more =
        name.toList ++ ' ' :: '=' :: ' ' :: (Numeral.intDigits value ++ '\n' :: more) := by
      simp [Line.text, Numeral.intText]
    rw [htext, takeLine?_token hname (fun c => Scalar.isTokenChar_of_mem_intDigits) (Scalar.ofToken?_intDigits hl hh)]
    rfl
  | boolean name value =>
    have htext : (Line.boolean name value).text.toList ++ '\n' :: more =
        name.toList ++ ' ' :: '=' :: ' ' :: ((if value then "true" else "false").toList ++ '\n' :: more) := by
      simp [Line.text]
    have htoken : ∀ c ∈ (if value then "true" else "false").toList, Scalar.isTokenChar c = true :=
      List.all_eq_true.1 (by cases value <;> decide)
    rw [htext, takeLine?_token h htoken (Scalar.ofToken?_boolean value)]
    rfl

/-! ## Files -/

theorem statements?_text {l : Line} (h : l.Sound) (more : List Char) :
    statements? (l.text.toList ++ '\n' :: more) = (statements? more).map (l.statement?.toList ++ ·) := by
  have hne : (l.text.toList ++ '\n' :: more).isEmpty = false := by simp
  have hlt : more.length < (l.text.toList ++ '\n' :: more).length := by
    rw [List.length_append, List.length_cons]
    omega
  rw [statements?, hne, takeLine?_text h more]
  simp only [Bool.false_eq_true, if_false, dif_pos hlt]

theorem statements?_flatMap {ls : List Line} (h : ∀ l ∈ ls, l.Sound) :
    statements? (ls.flatMap fun l => l.text.toList ++ ['\n']) = some (ls.filterMap Line.statement?) := by
  induction ls with
  | nil => rw [List.flatMap_nil, statements?]; rfl
  | cons l ls ih =>
    obtain ⟨hl, hls⟩ := List.forall_mem_cons.1 h
    have hfront : (l :: ls).flatMap (fun l => l.text.toList ++ ['\n']) =
        l.text.toList ++ '\n' :: ls.flatMap fun l => l.text.toList ++ ['\n'] := by
      rw [List.flatMap_cons, List.append_assoc]
      rfl
    rw [hfront, statements?_text hl, ih hls, List.filterMap_cons]
    cases l.statement? <;> rfl

theorem toList_render (ls : List Line) : (render ls).toList = ls.flatMap fun l => l.text.toList ++ ['\n'] := by
  have hline : (fun l : Line => (l.text ++ "\n").toList) = fun l => l.text.toList ++ ['\n'] := by
    funext l
    rw [String.toList_append]
    rfl
  rw [render, String.toList_join, List.flatMap_map, hline]

/-- No line begins with the mark of the byte order. -/
theorem Line.Sound.head?_ne {l : Line} (h : l.Sound) (more : List Char) :
    (l.text.toList ++ '\n' :: more).head? ≠ some byteOrderMark := by
  have hfirst (d : Char) (hd : d ≠ byteOrderMark) : some d ≠ some byteOrderMark := fun heq => hd (Option.some.inj heq)
  cases l with
  | blank => exact hfirst '\n' (by decide)
  | comment text =>
    rw [Line.text, String.toList_append]
    exact hfirst '#' (by decide)
  | header name =>
    rw [Line.text, String.toList_append, String.toList_append]
    exact hfirst '[' (by decide)
  | string name value remark =>
    simp only [Line.text, String.toList_append, List.append_assoc]
    exact h.1.head?_ne (by decide) _
  | integer name value =>
    simp only [Line.text, String.toList_append, List.append_assoc]
    exact h.1.head?_ne (by decide) _
  | boolean name value =>
    simp only [Line.text, String.toList_append, List.append_assoc]
    exact IsName.head?_ne h (by decide) _

/-- **The statements of a file are those of its lines.** -/
theorem fields?_render {ls : List Line} (h : ∀ l ∈ ls, l.Sound) :
    fields? (render ls) = Document.build? (ls.filterMap Line.statement?) := by
  have hmark : ∀ c cs, (render ls).toList = c :: cs → c ≠ byteOrderMark := by
    rintro c cs heq rfl
    cases ls with
    | nil =>
      rw [toList_render] at heq
      cases heq
    | cons l ls =>
      rw [toList_render, List.flatMap_cons, List.append_assoc] at heq
      exact (h l List.mem_cons_self).head?_ne _ (congrArg List.head? heq)
  have hfields : fields? (render ls) = (statements? (render ls).toList).bind Document.build? := by
    unfold fields?
    split
    · rename_i heq
      rw [heq]
    · rename_i c cs heq
      rw [if_neg (hmark c cs heq), heq]
  rw [hfields, toList_render, statements?_flatMap h, Option.bind_some]

end Toml
end SearchTelemetry
