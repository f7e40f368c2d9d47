import Mathlib.Data.List.TakeWhile
import SearchTelemetry.Proofs.Http.Framings
import SearchTelemetry.Proofs.Http.WholeHeads
import SearchTelemetry.Proofs.Text.Decoded
import SearchTelemetry.Proofs.Text.NumberField
/-!
# Http.FieldLines — the lines that headers are read from

A head that is read is its first line, one line for each of its headers, and an empty line (`exists_of_request`,
`exists_of_response`).  So what is said of a header is said of bytes: a content length that is read is the text of a field of
digits, and that text is all that its line has between the gaps (`denotes_header_iff`).
-/
namespace SearchTelemetry
namespace Http

variable {α β : Type} {bs rest : List UInt8} {fault : HeadFault}

namespace Syntax

/-! ## Parts of a line -/

/-- The bytes without the spaces and tabs around them. -/
def trimGaps (bs : List UInt8) : List UInt8 :=
  ((bs.dropWhile isGap).reverse.dropWhile isGap).reverse

/-- A header line: a name, a colon, the value with gaps around it, and the end of the line. -/
structure FieldLine where
  name : List UInt8
  value : List UInt8
  ending : List UInt8
  named : name ≠ []
  tokens : ∀ b ∈ name, isToken b = true
  text : ∀ b ∈ value, isText b = true
  ends : isEmptyLine ending = true

namespace FieldLine

def bytes (l : FieldLine) : List UInt8 :=
  l.name ++ 0x3A :: (l.value ++ l.ending)

/-- The header that is read from the line. -/
def header (l : FieldLine) : Header :=
  (ascii l.name, String.ofList (Blank.trim (Utf8.lossyChars (trimGaps l.value))))

/-- The header has this name, in any letter case. -/
def IsNamed (name : String) (l : FieldLine) : Prop :=
  LetterCase.same l.header.1 name = true

end FieldLine

theorem exists_of_name {name : String} (h : Syntax.name bs = .ok (name, rest)) :
    ∃ token, token ≠ [] ∧ (∀ b ∈ token, isToken b = true) ∧ bs = token ++ 0x3A :: rest ∧ name = ascii token := by
  unfold Syntax.name at h
  rw [List.span_eq_takeWhile_dropWhile] at h
  split at h
  · cases h
  · rename_i token b left heq
    obtain ⟨htoken, hleft⟩ := Prod.mk.inj heq
    split at h
    · rename_i hb
      cases h
      obtain ⟨rfl, hne⟩ := hb
      refine ⟨token, hne, ?_, ?_, rfl⟩
      · rw [← htoken]
        exact fun b hb => List.mem_takeWhile_imp hb
      · rw [← hleft, ← htoken, List.takeWhile_append_dropWhile]
    · cases h

theorem exists_of_lineEnd (h : lineEnd fault bs = .ok ((), rest)) : ∃ ending, isEmptyLine ending = true ∧ bs = ending ++ rest := by
  unfold lineEnd at h
  split at h
  · cases h
  · cases h
    exact ⟨[0x0A], rfl, rfl⟩
  · split at h
    · cases h
    · split at h
      · rename_i hb
        cases h
        subst hb
        exact ⟨[0x0D, 0x0A], rfl, rfl⟩
      · cases h
  · cases h

theorem exists_of_value {v : List UInt8} (h : value bs = .ok (v, rest)) :
    ∃ field ending, (∀ b ∈ field, isText b = true) ∧ isEmptyLine ending = true ∧ bs = field ++ (ending ++ rest) ∧
      v = trimGaps field := by
  unfold value at h
  rw [List.span_eq_takeWhile_dropWhile] at h
  obtain ⟨⟨⟨⟩, left⟩, hend, hv⟩ := exists_of_bind_eq_ok h
  obtain ⟨ending, hempty, hdrop⟩ := exists_of_lineEnd hend
  obtain ⟨rfl, rfl⟩ := Prod.mk.inj (Except.ok.inj hv)
  let gaps := bs.takeWhile isGap
  let text := (bs.dropWhile isGap).takeWhile isText
  have hgaps : ∀ b ∈ gaps, isGap b = true := fun b hb => List.mem_takeWhile_imp hb
  have hstart : text.dropWhile isGap = text := by
    cases htext : text with
    | nil => rfl
    | cons b text' =>
      refine List.dropWhile_cons_of_neg fun hgap => ?_
      have hhead : (bs.dropWhile isGap).head? = some b := by
        rw [← List.takeWhile_append_dropWhile (p := isText) (l := bs.dropWhile isGap)]
        show (text ++ _).head? = some b
        rw [htext]
        rfl
      have hstop := List.head?_dropWhile_not isGap bs
      rw [hhead] at hstop
      exact Bool.noConfusion (hstop.symm.trans hgap)
  refine ⟨gaps ++ text, ending, ?_, hempty, ?_, ?_⟩
  · intro b hb
    rcases List.mem_append.1 hb with hb | hb
    · have := hgaps b hb
      simp only [isGap, Bool.or_eq_true, beq_iff_eq] at this
      rcases this with rfl | rfl <;> rfl
    · exact List.mem_takeWhile_imp hb
  · rw [List.append_assoc, ← hdrop, List.takeWhile_append_dropWhile, List.takeWhile_append_dropWhile]
  · rw [trimGaps, List.dropWhile_append_of_pos hgaps, hstart]

theorem exists_of_header {hd : Header} (h : header bs = .ok (hd, rest)) : ∃ l : FieldLine, l.header = hd ∧ bs = l.bytes ++ rest := by
  obtain ⟨⟨name, left⟩, hname, h⟩ := exists_of_bind_eq_ok h
  obtain ⟨⟨v, left'⟩, hvalue, h⟩ := exists_of_bind_eq_ok h
  obtain ⟨token, hne, htoken, rfl, rfl⟩ := exists_of_name hname
  obtain ⟨field, ending, hfield, hempty, rfl, rfl⟩ := exists_of_value hvalue
  obtain ⟨rfl, rfl⟩ := Prod.mk.inj (Except.ok.inj h)
  refine ⟨⟨token, field, ending, hne, htoken, hfield, hempty⟩, rfl, ?_⟩
  simp [FieldLine.bytes]

/-! ## Lines of a head -/

theorem exists_of_headersLoop {left : Nat} {acc headers : List Header} (h : headersLoop left acc bs = .ok (headers, rest)) :
    ∃ (lines : List FieldLine) (ending : List UInt8), headers = acc.reverse ++ lines.map FieldLine.header ∧
      isEmptyLine ending = true ∧ bs = lines.flatMap FieldLine.bytes ++ (ending ++ rest) := by
  fun_induction headersLoop left acc bs with
  | case1 left acc bs hstart =>
    obtain ⟨⟨⟨⟩, left'⟩, hend, heq⟩ := exists_of_map_eq_ok h
    obtain ⟨rfl, rfl⟩ := Prod.mk.inj heq
    obtain ⟨ending, hempty, rfl⟩ := exists_of_lineEnd hend
    exact ⟨[], ending, (List.append_nil _).symm, hempty, rfl⟩
  | case2 left acc bs hstart fault hline => cases h
  | case3 acc bs hstart hd left' hline => cases h
  | case4 acc bs hstart hd left' hline left ih =>
    obtain ⟨l, rfl, rfl⟩ := exists_of_header hline
    obtain ⟨lines, ending, rfl, hempty, rfl⟩ := ih h
    refine ⟨l :: lines, ending, ?_, hempty, ?_⟩
    · simp
    · rw [List.flatMap_cons, List.append_assoc]

/-- The lines of a head: a first one, one for each header, and an empty one. -/
structure HeadLines where
  first : List UInt8
  fields : List FieldLine
  ending : List UInt8
  isLine : IsLine first
  ends : isEmptyLine ending = true

namespace HeadLines

def bytes (ls : HeadLines) : List UInt8 :=
  ls.first ++ (ls.fields.flatMap FieldLine.bytes ++ ls.ending)

def headers (ls : HeadLines) : List Header :=
  ls.fields.map FieldLine.header

theorem mem_values {ls : HeadLines} {name v : String} :
    v ∈ Header.values ls.headers name ↔ ∃ l ∈ ls.fields, l.IsNamed name ∧ l.header.2 = v := by
  simp [Header.values, headers, FieldLine.IsNamed, and_assoc]

end HeadLines

theorem Leaves.of_eq_ok {P : List UInt8 → Prop} {r : Except HeadFault (Parsed α)} {a : α} (h : Leaves P r)
    (hr : r = .ok (a, rest)) : P rest := by
  rw [hr] at h
  exact h

theorem exists_of_headers {first : List UInt8} {headers : List Header} (hfirst : IsLine first)
    (h : Syntax.headers bs = .ok (headers, [])) :
    ∃ ls : HeadLines, ls.bytes = first ++ bs ∧ ls.headers = headers := by
  obtain ⟨fields, ending, rfl, hempty, rfl⟩ := exists_of_headersLoop h
  refine ⟨⟨first, fields, ending, hfirst, hempty⟩, ?_, rfl⟩
  rw [List.append_nil]
  rfl

theorem eq_of_skipEmpty {l front : List UInt8} (hl : IsLine l) (hempty : isEmptyLine l = false)
    (h : skipEmpty (l ++ bs) = .ok front) : front = l ++ bs := by
  rcases skipEmpty_line bs hl hempty with heq | heq
  · exact Except.ok.inj (h.symm.trans heq)
  · cases h.symm.trans heq

theorem exists_of_request {raw : List UInt8} {parts : RequestParts} (hhead : IsHead raw)
    (h : request raw = .ok (parts, [])) : ∃ ls : HeadLines, ls.bytes = raw ∧ ls.headers = parts.headers := by
  obtain ⟨l, bs, rfl, hl, hempty, hbs⟩ := hhead.exists_cons
  obtain ⟨front, hskip, h⟩ := exists_of_bind_eq_ok h
  obtain rfl := eq_of_skipEmpty hl hempty hskip
  -- what is left after each part of the first line is still within it, up to the line's end
  obtain ⟨⟨name, r1⟩, hmethod, h⟩ := exists_of_bind_eq_ok h
  obtain ⟨⟨path, r2⟩, htarget, h⟩ := exists_of_bind_eq_ok h
  obtain ⟨⟨minor, r3⟩, hversion, h⟩ := exists_of_bind_eq_ok h
  obtain ⟨⟨⟨⟩, r4⟩, hend, h⟩ := exists_of_bind_eq_ok h
  obtain ⟨⟨headers, r5⟩, hheaders, h⟩ := exists_of_bind_eq_ok h
  obtain ⟨rfl, rfl⟩ := Prod.mk.inj (Except.ok.inj h)
  have h1 := (leaves_method ⟨l, hl, rfl⟩).of_eq_ok hmethod
  have h2 := (leaves_target h1).of_eq_ok htarget
  have h3 := (leaves_version h2).of_eq_ok hversion
  obtain rfl : r4 = bs := (leaves_lineEnd (by decide) h3).of_eq_ok hend
  exact exists_of_headers hl hheaders

theorem exists_of_response {raw : List UInt8} {parts : ResponseParts} (hhead : IsHead raw)
    (h : response raw = .ok (parts, [])) : ∃ ls : HeadLines, ls.bytes = raw ∧ ls.headers = parts.headers := by
  obtain ⟨l, bs, rfl, hl, hempty, hbs⟩ := hhead.exists_cons
  obtain ⟨front, hskip, h⟩ := exists_of_bind_eq_ok h
  obtain rfl := eq_of_skipEmpty hl hempty hskip
  obtain ⟨⟨minor, r1⟩, hversion, h⟩ := exists_of_bind_eq_ok h
  obtain ⟨⟨⟨⟩, r2⟩, hspace, h⟩ := exists_of_bind_eq_ok h
  obtain ⟨⟨status, r3⟩, hstatus, h⟩ := exists_of_bind_eq_ok h
  obtain ⟨⟨reason, r4⟩, hreason, h⟩ := exists_of_bind_eq_ok h
  obtain ⟨⟨headers, r5⟩, hheaders, h⟩ := exists_of_bind_eq_ok h
  obtain ⟨rfl, rfl⟩ := Prod.mk.inj (Except.ok.inj h)
  have h1 := (leaves_version ⟨l, hl, rfl⟩).of_eq_ok hversion
  have h2 := (leaves_space (by decide) h1).of_eq_ok hspace
  have h3 := (leaves_status h2).of_eq_ok hstatus
  obtain rfl : r4 = bs := (leaves_reason h3).of_eq_ok hreason
  exact exists_of_headers hl hheaders

end Syntax

/-! ## Content lengths -/

open Numeral (Field isDigit)

/-- The bytes are decimal digits, at least one, that say `n`. -/
def IsDecimal (bs : List UInt8) (n : Nat) : Prop :=
  ∃ digits : List Char, digits ≠ [] ∧ (∀ c ∈ digits, isDigit c = true) ∧ bs = Utf8.encode digits ∧
    Nat.ofDigitChars 10 digits 0 = n

/-- A content length as it is read: a field of digits in all the bytes between the gaps. -/
structure ReadsLength (bs : List UInt8) (n : Nat) (f : Field isDigit) : Prop where
  bytes : bs = Utf8.encode f.text
  spelled : Nat.ofDigitChars 10 f.digits 0 = n
  fits : n < Numeral.pow2 64

theorem replacement_not_mem_text (f : Field isDigit) : Utf8.replacement ∉ f.text := by
  intro hmem
  rcases Field.mem_text hmem with h | h | h
  · exact absurd h (by decide)
  · exact absurd h (by decide)
  · exact absurd h (by decide)

/-- **A content length is read if its line has a field of digits between the gaps.** -/
theorem denotes_header_iff {l : Syntax.FieldLine} {n : Nat} :
    Framing.Denotes l.header.2 n ↔ ∃ f, ReadsLength (Syntax.trimGaps l.value) n f := by
  unfold Framing.Denotes
  show Numeral.unsigned? 64 (String.ofList _).toList = some n ↔ _
  rw [String.toList_ofList, Numeral.unsigned?_trim_eq_some]
  constructor
  · rintro ⟨f, htext, hn, hfits⟩
    refine ⟨f, ?_, hn, hfits⟩
    have hclean : Utf8.replacement ∉ Utf8.lossyChars (Syntax.trimGaps l.value) := htext ▸ replacement_not_mem_text f
    rw [htext, Utf8.encode_of_lossyChars hclean]
  · rintro ⟨f, hbytes, hn, hfits⟩
    exact ⟨f, by rw [hbytes, Utf8.lossyChars_encode], hn, hfits⟩

/-- What is read is just digits if there is nothing else in the field. -/
theorem ReadsLength.isDecimal_iff {n : Nat} {f : Field isDigit} (h : ReadsLength bs n f) :
    IsDecimal bs n ↔ f.IsBare ∧ f.trail = [] := by
  constructor
  · rintro ⟨digits, hne, hdigits, hbytes, -⟩
    have htext : f.text = (Field.ofDigits digits [] hne hdigits Blank.all_nil : Field isDigit).text := by
      refine Utf8.encode_inj (h.bytes.symm.trans (hbytes.trans ?_))
      rw [Field.text_of_isBare ⟨rfl, rfl⟩]
      exact congrArg Utf8.encode (List.append_nil digits).symm
    obtain rfl := Field.text_inj Numeral.isDigitKind_isDigit htext
    exact ⟨⟨rfl, rfl⟩, rfl⟩
  · rintro ⟨hbare, htrail⟩
    refine ⟨f.digits, f.full, f.ofKind, ?_, h.spelled⟩
    rw [h.bytes, Field.text_of_isBare hbare, htrail, List.append_nil]

end Http
end SearchTelemetry
