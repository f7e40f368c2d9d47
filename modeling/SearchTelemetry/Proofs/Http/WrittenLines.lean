import SearchTelemetry.Proofs.Http.FieldLines
/-!
# Http.WrittenLines — lines that are written are read

The converse of what `Http.FieldLines` says: a line that has the parts of a header line is read as its header, whatever
follows it (`FieldLine.header_bytes`), and a first line for a response with such lines and an empty one behind it is the head
that they say (`HeadLines.response_bytes`).
-/
namespace SearchTelemetry
namespace Http
namespace Syntax

variable {bs rest : List UInt8} {fault : HeadFault}

/-! ## Parts of a line -/

theorem span_append {p : UInt8 → Bool} {a : List UInt8} {b : UInt8} (ha : ∀ c ∈ a, p c = true) (hb : p b = false)
    (rest : List UInt8) : (a ++ b :: rest).span p = (a, b :: rest) := by
  rw [List.span_eq_takeWhile_dropWhile, List.takeWhile_append_of_pos ha, List.dropWhile_append_of_pos ha]
  simp [hb]

theorem name_append {token : List UInt8} (hne : token ≠ []) (htoken : ∀ b ∈ token, isToken b = true) (rest : List UInt8) :
    Syntax.name (token ++ 0x3A :: rest) = .ok (ascii token, rest) := by
  rw [Syntax.name, span_append htoken (by decide)]
  simp [hne]

theorem lineEnd_append {ending : List UInt8} (h : isEmptyLine ending = true) (rest : List UInt8) :
    lineEnd fault (ending ++ rest) = .ok ((), rest) := by
  simp only [isEmptyLine, Bool.or_eq_true, beq_iff_eq] at h
  rcases h with rfl | rfl
  · rfl
  · rfl

/-- An end of a line begins with a byte that is neither a gap nor text. -/
theorem exists_cons_of_isEmptyLine {ending : List UInt8} (h : isEmptyLine ending = true) :
    ∃ b bs, ending = b :: bs ∧ isGap b = false ∧ isText b = false := by
  simp only [isEmptyLine, Bool.or_eq_true, beq_iff_eq] at h
  rcases h with rfl | rfl
  · exact ⟨_, _, rfl, by decide, by decide⟩
  · exact ⟨_, _, rfl, by decide, by decide⟩

theorem value_append {field ending : List UInt8} (hfield : ∀ b ∈ field, isText b = true) (h : isEmptyLine ending = true)
    (rest : List UInt8) : value (field ++ (ending ++ rest)) = .ok (trimGaps field, rest) := by
  obtain ⟨b, bs, rfl, hgap, htext⟩ := exists_cons_of_isEmptyLine h
  have hdrop : (field ++ (b :: bs ++ rest)).dropWhile isGap = field.dropWhile isGap ++ b :: (bs ++ rest) := by
    rw [List.cons_append, List.dropWhile_append]
    split
    · rename_i hnil
      rw [List.isEmpty_iff.1 hnil, List.nil_append, List.dropWhile_cons_of_neg (by simp [hgap])]
    · rfl
  have hspan := span_append (fun c hc => hfield c ((List.dropWhile_sublist isGap).mem hc)) htext (bs ++ rest)
  have hend : lineEnd .headerValue (b :: (bs ++ rest)) = .ok ((), rest) := lineEnd_append h rest
  rw [value, hdrop, hspan]
  simp only [hend]
  rfl

namespace FieldLine

/-- **A header line is read as its header.** -/
theorem header_bytes (l : FieldLine) (rest : List UInt8) : Syntax.header (l.bytes ++ rest) = .ok (l.header, rest) := by
  have hname := name_append l.named l.tokens (l.value ++ (l.ending ++ rest))
  have hvalue := value_append l.text l.ends rest
  have hbytes : l.bytes ++ rest = l.name ++ 0x3A :: (l.value ++ (l.ending ++ rest)) := by simp [bytes]
  rw [Syntax.header, hbytes, hname]
  simp only [bind, Except.bind, hvalue]
  rfl

theorem atLineEnd_bytes (l : FieldLine) (rest : List UInt8) : atLineEnd (l.bytes ++ rest) = false := by
  obtain ⟨b, token, hname⟩ := List.exists_cons_of_ne_nil l.named
  have hb : isToken b = true := l.tokens b (by rw [hname]; exact List.mem_cons_self)
  rw [bytes, hname]
  simp only [List.cons_append, atLineEnd, Bool.or_eq_false_iff, beq_eq_false_iff_ne]
  constructor
  · rintro rfl
    revert hb
    decide
  · rintro rfl
    revert hb
    decide

theorem isLine (l : FieldLine) : IsLine l.bytes := by
  have hname : 0x0A ∉ l.name := fun hmem => absurd (l.tokens _ hmem) (by decide)
  have hvalue : 0x0A ∉ l.value := fun hmem => absurd (l.text _ hmem) (by decide)
  obtain ⟨t, ht, hending⟩ := isLine_of_isEmptyLine l.ends
  refine ⟨l.name ++ 0x3A :: (l.value ++ t), ?_, ?_⟩
  · simp [hname, hvalue, ht]
  · simp [bytes, hending]

theorem isEmptyLine_bytes (l : FieldLine) : isEmptyLine l.bytes = false := by
  refine Bool.eq_false_iff.2 fun h => ?_
  have hstart := l.atLineEnd_bytes []
  simp only [isEmptyLine, Bool.or_eq_true, beq_iff_eq] at h
  rcases h with h | h
  · simp [h, atLineEnd] at hstart
  · simp [h, atLineEnd] at hstart

end FieldLine

/-! ## Heads -/

theorem headersLoop_append {ending : List UInt8} (h : isEmptyLine ending = true) (rest : List UInt8) :
    ∀ (lines : List FieldLine) (left : Nat) (acc : List Header), lines.length ≤ left →
      headersLoop left acc (lines.flatMap FieldLine.bytes ++ (ending ++ rest)) =
        .ok (acc.reverse ++ lines.map FieldLine.header, rest)
  | [], left, acc, _ => by
    have hstart : atLineEnd (ending ++ rest) = true := by
      simp only [isEmptyLine, Bool.or_eq_true, beq_iff_eq] at h
      rcases h with rfl | rfl
      · rfl
      · rfl
    rw [List.flatMap_nil, List.nil_append, headersLoop, if_pos hstart, lineEnd_append h]
    simp [Except.map]
  | l :: lines, left, acc, hleft => by
    obtain ⟨left, rfl⟩ : ∃ n, left = n + 1 := ⟨left - 1, by rw [List.length_cons] at hleft; omega⟩
    have ih := headersLoop_append h rest lines left (l.header :: acc) (Nat.le_of_succ_le_succ hleft)
    rw [List.flatMap_cons, List.append_assoc, headersLoop, l.atLineEnd_bytes, l.header_bytes]
    simp [ih]

theorem isBlock_fields {ending : List UInt8} (h : isEmptyLine ending = true) : ∀ lines : List FieldLine,
    IsBlock IsLine (lines.flatMap FieldLine.bytes ++ ending)
  | [] => .last (isLine_of_isEmptyLine h) h
  | l :: lines => by
    rw [List.flatMap_cons, List.append_assoc]
    exact .cons l.isLine l.isEmptyLine_bytes (isBlock_fields h lines)

/-- The lines of a head are one. -/
theorem HeadLines.isHead (ls : HeadLines) (hfirst : isEmptyLine ls.first = false) : IsHead ls.bytes :=
  .cons ls.isLine hfirst (isBlock_fields ls.ends ls.fields)

/-! ## First lines of responses -/

theorem ascii_encode {cs : List Char} (h : ∀ c ∈ cs, c.toNat < 0x80) : ascii (Utf8.encode cs) = String.ofList cs := by
  rw [ascii]
  congr 1
  induction cs with
  | nil => rfl
  | cons c cs ih =>
    obtain ⟨hc, hcs⟩ := List.forall_mem_cons.1 h
    have hback : Char.ofNat c.toNat.toUInt8.toNat = c := by
      rw [Utf8.toNat_toUInt8 (by omega), Char.ofNat_toNat]
    rw [Utf8.encode_cons, Utf8.encodeChar_of_lt hc, List.singleton_append, List.map_cons, ih hcs, hback]

/-- Text that may stand for a reason: ASCII without controls. -/
def IsReason (s : String) : Prop :=
  ∀ c ∈ s.toList, 0x20 ≤ c.toNat ∧ c.toNat < 0x7F

-- by name, so that no search over all characters is found in its stead
instance : DecidablePred IsReason := fun s =>
  List.decidableBAll (fun c : Char => 0x20 ≤ c.toNat ∧ c.toNat < 0x7F) s.toList

/-- A reason in bytes is ASCII text. -/
theorem IsReason.of_mem {s : String} (h : IsReason s) {b : UInt8} (hb : b ∈ Utf8.bytes s) :
    0x20 ≤ b.toNat ∧ b.toNat < 0x7F := by
  obtain ⟨c, hc, hb⟩ := List.mem_flatMap.1 hb
  obtain ⟨hl, hh⟩ := h c hc
  rw [Utf8.encodeChar_of_lt (by omega), List.mem_singleton] at hb
  rw [hb, Utf8.toNat_toUInt8 (by omega)]
  exact ⟨hl, hh⟩

theorem reason_append {s : String} (h : IsReason s) (rest : List UInt8) :
    reason (0x20 :: (Utf8.bytes s ++ 0x0D :: 0x0A :: rest)) = .ok (s, rest) := by
  have htext : ∀ b ∈ Utf8.bytes s, isText b = true := fun b hb => by
    obtain ⟨hl, hh⟩ := h.of_mem hb
    simp only [isText, Bool.or_eq_true, Bool.and_eq_true, decide_eq_true_eq, UInt8.le_iff_toNat_le, UInt8.reduceToNat]
    omega
  have hascii : (Utf8.bytes s).any (0x80 ≤ ·) = false := List.any_eq_false.2 fun b hb => by
    have := (h.of_mem hb).2
    simp only [decide_eq_true_eq, UInt8.le_iff_toNat_le, UInt8.reduceToNat]
    omega
  have hback : ascii (Utf8.bytes s) = s := by
    rw [Utf8.bytes, ascii_encode fun c hc => by have := h c hc; omega, String.ofList_toList]
  rw [reason, span_append htext (by decide)]
  simp [lineEnd, hascii, hback, bind, Except.bind]
  rfl

theorem statusDigit_digitChar {k : Nat} (hk : k < 10) (rest : List UInt8) :
    statusDigit (Utf8.encodeChar k.digitChar ++ rest) = .ok (k, rest) := by
  have hdigit : ∀ k < 10, Utf8.encodeChar k.digitChar = [(0x30 + k).toUInt8] := by decide
  have hnat : (0x30 + k).toUInt8.toNat = 0x30 + k := Utf8.toNat_toUInt8 (by omega)
  have hrange : 0x30 ≤ (0x30 + k).toUInt8 ∧ (0x30 + k).toUInt8 ≤ 0x39 := by
    simp only [UInt8.le_iff_toNat_le, hnat, UInt8.reduceToNat]
    omega
  rw [hdigit k hk, List.singleton_append, statusDigit, if_pos hrange, hnat, Nat.add_sub_cancel_left]

/-- A number of three digits is read as a status. -/
theorem status_append {n : Nat} (hl : 100 ≤ n) (hh : n < 1000) (rest : List UInt8) :
    status (Utf8.bytes (Numeral.text n) ++ rest) = .ok (n, rest) := by
  have hdigits : Numeral.digits n = [(n / 10 / 10).digitChar, (n / 10 % 10).digitChar, (n % 10).digitChar] := by
    rw [Numeral.digits_of_le (by omega), Numeral.digits_of_le (by omega), Numeral.digits_of_lt (by omega)]
    rfl
  have hvalue : n / 10 / 10 * 100 + n / 10 % 10 * 10 + n % 10 = n := by omega
  rw [Utf8.bytes, Numeral.text, String.toList_ofList, hdigits]
  simp only [Utf8.encode_cons, Utf8.encode_nil, List.append_nil, List.append_assoc, status,
    statusDigit_digitChar (by omega : n / 10 / 10 < 10), statusDigit_digitChar (by omega : n / 10 % 10 < 10),
    statusDigit_digitChar (by omega : n % 10 < 10), bind, Except.bind, hvalue]
  rfl

/-- The first line of a response in version 1.1. -/
def statusLine (status : Nat) (reason : String) : List UInt8 :=
  versionStart ++ 0x31 :: 0x20 :: (Utf8.bytes (Numeral.text status) ++ 0x20 :: (Utf8.bytes reason ++ [0x0D, 0x0A]))

theorem versionStart_eq : versionStart = [0x48, 0x54, 0x54, 0x50, 0x2F, 0x31, 0x2E] := by
  decide +kernel

theorem isEmptyLine_statusLine (status : Nat) (reason : String) : isEmptyLine (statusLine status reason) = false := by
  rw [statusLine, versionStart_eq]
  rfl

theorem isLine_statusLine (status : Nat) {reason : String} (h : IsReason reason) : IsLine (statusLine status reason) := by
  have hdigits : 0x0A ∉ Utf8.bytes (Numeral.text status) := fun hmem => by
    refine absurd (Utf8.le_of_mem_encode (fun c hc => ?_) hmem) (by decide)
    rw [Numeral.text, String.toList_ofList] at hc
    have := Numeral.le_of_isDigit (Numeral.isDigit_of_mem_digits hc)
    omega
  have hreason : 0x0A ∉ Utf8.bytes reason := fun hmem => absurd (h.of_mem hmem).1 (by decide)
  refine ⟨versionStart ++ 0x31 :: 0x20 :: (Utf8.bytes (Numeral.text status) ++ 0x20 :: (Utf8.bytes reason ++ [0x0D])), ?_, ?_⟩
  · simp [versionStart_eq, hdigits, hreason]
  · simp [statusLine]

/-- **A head for a response is read as what its lines say.** -/
theorem HeadLines.response_bytes {n : Nat} {reason : String} (hl : 100 ≤ n) (hh : n < 1000) (hreason : IsReason reason)
    (ls : HeadLines) (hfirst : ls.first = statusLine n reason) (hfields : ls.fields.length ≤ maxHeaders) :
    response ls.bytes = .ok ({ minor := 1, status := n, reason, headers := ls.headers }, []) := by
  have hheaders : Syntax.headers (ls.fields.flatMap FieldLine.bytes ++ ls.ending) = .ok (ls.headers, []) := by
    have hloop := headersLoop_append ls.ends [] ls.fields maxHeaders [] hfields
    rwa [List.append_nil] at hloop
  have hstatus := status_append hl hh
    (0x20 :: (Utf8.bytes reason ++ 0x0D :: 0x0A :: (ls.fields.flatMap FieldLine.bytes ++ ls.ending)))
  have hreason' := reason_append hreason (ls.fields.flatMap FieldLine.bytes ++ ls.ending)
  have hversion : ∀ rest, version (versionStart ++ 0x31 :: rest) = .ok (1, rest) := fun rest => by
    rw [version, versionStart_eq]
    rfl
  have hskip : ∀ rest, skipEmpty (versionStart ++ rest) = .ok (versionStart ++ rest) := fun rest => by
    rw [versionStart_eq]
    rfl
  simp only [bytes, hfirst, statusLine, List.append_assoc, List.cons_append, List.nil_append, response, hskip, hversion,
    space, hstatus, hreason', hheaders, bind, Except.bind, if_true]
  rfl

end Syntax
end Http
end SearchTelemetry
