import SearchTelemetry.Gateway
import SearchTelemetry.Proofs.Http.Bodies
import SearchTelemetry.Proofs.Http.Chunks
import SearchTelemetry.Proofs.Http.Delimiters
import SearchTelemetry.Proofs.Http.WrittenLines
import SearchTelemetry.Proofs.Text.Numeral
/-!
# Gateway — the relay's own answers are whole messages

The head of an answer says nothing of what went wrong but how many bytes its words take, and the words are all of the body.
So whatever they are, the answer is read as one message with its status, which ends the connection and leaves unread what
follows it (`answer_read`).
-/
namespace SearchTelemetry

theorem Utf8.bytes_append (a b : String) : bytes (a ++ b) = bytes a ++ bytes b := by
  simp [bytes]

theorem Utf8.bytes_ofList (cs : List Char) : bytes (String.ofList cs) = encode cs := by
  rw [bytes, String.toList_ofList]

namespace Gateway

open Http Http.Syntax

/-! ## The lines of the head -/

def typeLine : FieldLine where
  name := Utf8.bytes "content-type"
  value := Utf8.bytes " text/plain; charset=utf-8"
  ending := [0x0D, 0x0A]
  named := by decide
  tokens := by decide +kernel
  text := by decide +kernel
  ends := by decide

theorem isDigit_of_mem_bytes {n : Nat} {b : UInt8} (h : b ∈ Utf8.bytes (Numeral.text n)) : 0x30 ≤ b.toNat ∧ b.toNat ≤ 0x39 := by
  rw [Numeral.text, Utf8.bytes_ofList] at h
  obtain ⟨c, hc, hb⟩ := List.mem_flatMap.1 h
  obtain ⟨hl, hh⟩ := Numeral.le_of_isDigit (Numeral.isDigit_of_mem_digits hc)
  rw [Utf8.encodeChar_of_lt (by omega), List.mem_singleton] at hb
  rw [hb, Utf8.toNat_toUInt8 (by omega)]
  exact ⟨hl, hh⟩

theorem isText_of_mem_bytes {n : Nat} {b : UInt8} (h : b ∈ 0x20 :: Utf8.bytes (Numeral.text n)) : isText b = true := by
  rcases List.mem_cons.1 h with rfl | h
  · decide
  · have := isDigit_of_mem_bytes h
    simp only [isText, Bool.or_eq_true, Bool.and_eq_true, decide_eq_true_eq, UInt8.le_iff_toNat_le, UInt8.reduceToNat]
    omega

def lengthLine (n : Nat) : FieldLine where
  name := Utf8.bytes "content-length"
  value := 0x20 :: Utf8.bytes (Numeral.text n)
  ending := [0x0D, 0x0A]
  named := by decide
  tokens := by decide +kernel
  text _ hb := isText_of_mem_bytes hb
  ends := by decide

def closeLine : FieldLine where
  name := Utf8.bytes "connection"
  value := Utf8.bytes " close"
  ending := [0x0D, 0x0A]
  named := by decide
  tokens := by decide +kernel
  text := by decide +kernel
  ends := by decide

theorem header_typeLine : typeLine.header = ("content-type", "text/plain; charset=utf-8") := by
  decide +kernel

theorem header_closeLine : closeLine.header = ("connection", "close") := by
  decide +kernel

theorem header_lengthLine (n : Nat) : (lengthLine n).header = ("content-length", Numeral.text n) := by
  have hname : ascii (Utf8.bytes "content-length") = "content-length" := by decide +kernel
  have hgap : ∀ b ∈ Utf8.bytes (Numeral.text n), isGap b = false := fun b hb => by
    have := isDigit_of_mem_bytes hb
    simp only [isGap, Bool.or_eq_false_iff, beq_eq_false_iff_ne, ne_eq, ← UInt8.toNat_inj, UInt8.reduceToNat]
    omega
  have hstay : ∀ bs : List UInt8, (∀ b ∈ bs, isGap b = false) → bs.dropWhile isGap = bs := fun bs h => by
    cases bs with
    | nil => rfl
    | cons b bs => exact List.dropWhile_cons_of_neg (by simp [h b List.mem_cons_self])
  have htrim : trimGaps (0x20 :: Utf8.bytes (Numeral.text n)) = Utf8.bytes (Numeral.text n) := by
    rw [trimGaps, List.dropWhile_cons_of_pos (by decide), hstay _ hgap,
      hstay _ fun b hb => hgap b (List.mem_reverse.1 hb), List.reverse_reverse]
  have hblank : Blank.trim (Numeral.digits n) = Numeral.digits n :=
    Blank.trim_of_forall fun c hc => by
      obtain ⟨hl, hh⟩ := Numeral.le_of_isDigit (Numeral.isDigit_of_mem_digits hc)
      simp only [Blank.isBlank, Bool.or_eq_false_iff, Bool.and_eq_false_iff, decide_eq_false_iff_not, beq_eq_false_iff_ne]
      omega
  rw [FieldLine.header, lengthLine, hname, htrim, Numeral.text, Utf8.bytes_ofList, Utf8.lossyChars_encode, hblank]

theorem isReason_reason (g : Gateway) : IsReason g.reason := by
  cases g with
  | unreachable => exact (by decide +kernel : IsReason "Bad Gateway")
  | timeout => exact (by decide +kernel : IsReason "Gateway Timeout")

/-- The lines of the head of an answer. -/
def lines (g : Gateway) : HeadLines where
  first := Syntax.statusLine g.status g.reason
  fields := [typeLine, lengthLine g.body.length, closeLine]
  ending := [0x0D, 0x0A]
  isLine := isLine_statusLine g.status g.isReason_reason
  ends := by decide

theorem bytes_lines (g : Gateway) : g.lines.bytes = Utf8.bytes g.head := by
  have hstart : Utf8.bytes "HTTP/1.1 " = versionStart ++ [0x31, 0x20] := by decide +kernel
  have hspace : Utf8.bytes " " = [0x20] := by decide +kernel
  have htype : Utf8.bytes "\r\ncontent-type: text/plain; charset=utf-8" ++ Utf8.bytes "\r\ncontent-length: " =
      [0x0D, 0x0A] ++ typeLine.bytes ++ (Utf8.bytes "content-length" ++ [0x3A, 0x20]) := by decide +kernel
  have hclose : Utf8.bytes "\r\nconnection: close\r\n\r\n" = [0x0D, 0x0A] ++ closeLine.bytes ++ [0x0D, 0x0A] := by
    decide +kernel
  have hhead : Utf8.bytes g.head = Utf8.bytes "HTTP/1.1 " ++ (Utf8.bytes (Numeral.text g.status) ++ (Utf8.bytes " " ++
      (Utf8.bytes g.reason ++ ((Utf8.bytes "\r\ncontent-type: text/plain; charset=utf-8" ++
        Utf8.bytes "\r\ncontent-length: ") ++ (Utf8.bytes (Numeral.text g.body.length) ++
          Utf8.bytes "\r\nconnection: close\r\n\r\n"))))) := by
    simp only [head, Utf8.bytes_append, List.append_assoc]
  rw [hhead, hstart, hspace, htype, hclose]
  simp [lines, HeadLines.bytes, Syntax.statusLine, lengthLine, FieldLine.bytes]

/-! ## Reading the answer -/

theorem body_eq (g : Gateway) : g.body = Utf8.bytes g.message ++ [0x0A] := by
  rw [body, Utf8.bytes_append]
  rfl

/-- The headers that are read from the head. -/
def headers (g : Gateway) : List Header :=
  [("content-type", "text/plain; charset=utf-8"), ("content-length", Numeral.text g.body.length), ("connection", "close")]

theorem headers_lines (g : Gateway) : g.lines.headers = g.headers := by
  simp [lines, HeadLines.headers, header_typeLine, header_lengthLine, header_closeLine, headers]

theorem values_headers (g : Gateway) : Header.values g.headers "transfer-encoding" = [] ∧
    Header.values g.headers "content-length" = [Numeral.text g.body.length] ∧
    Header.values g.headers "connection" = ["close"] := by
  have hnames : ∀ name ∈ ["transfer-encoding", "content-length", "connection"],
      ["content-type", "content-length", "connection"].map (LetterCase.same · name) =
        ["content-type", "content-length", "connection"].map (· == name) := by decide +kernel
  simp only [List.forall_mem_cons, List.map_cons, List.map_nil, List.cons.injEq] at hnames
  simp [Header.values, headers, hnames]

theorem status_bounds (g : Gateway) : 500 ≤ g.status ∧ g.status < 600 := by
  cases g with
  | unreachable => simp [status]
  | timeout => simp [status]

theorem framing_headers {g : Gateway} {method : String} (hmethod : LetterCase.same method "HEAD" = false)
    (hsize : g.body.length < 2 ^ 64) :
    Framing.ofResponse method g.status g.headers = .ok (.length g.body.length) := by
  obtain ⟨hcoding, hlength, -⟩ := g.values_headers
  have hstatus := g.status_bounds
  have hbody : ¬Framing.HasNoBody method g.status := by
    rintro (h | h | h | h)
    · exact Bool.noConfusion (h.symm.trans hmethod)
    · omega
    · omega
    · omega
  have hchunked : ¬Framing.NamesChunked g.headers := by
    rintro ⟨v, part, hlast, -⟩
    rw [hcoding] at hlast
    cases hlast
  have hpos : 0 < g.body.length := by rw [body_eq]; simp
  have hdenotes : Framing.Denotes (Numeral.text g.body.length) g.body.length := by
    have hbound : g.body.length < Numeral.pow2 64 := hsize
    rw [Framing.Denotes, Numeral.text, String.toList_ofList, Numeral.unsigned?, Numeral.dropPlus_digits,
      Numeral.unsignedDigits?_digits]
    simp [Option.filter, hbound]
  have hagree : Framing.Agree (Header.values g.headers "content-length") g.body.length := by
    rw [hlength]
    exact ⟨by simp, by simpa using hdenotes⟩
  rw [ResponseHead.ofResponse_of_hasBody hbody]
  exact ((Framing.decides_ofHeaders (.inr rfl) g.headers).length _).2 ⟨hchunked, hpos, hagree⟩

/-- The head that is read from an answer, with the framing that a method makes of it. -/
def responseHead (g : Gateway) (framing : Framing) : ResponseHead where
  raw := Utf8.bytes g.head
  parts := { minor := 1, status := g.status, reason := g.reason, headers := g.headers }
  framing

theorem raw_responseHead (g : Gateway) (framing : Framing) : (g.responseHead framing).raw = Utf8.bytes g.head := by
  simp only [responseHead]

theorem wantsClose_responseHead (g : Gateway) (framing : Framing) : (g.responseHead framing).wantsClose = true := by
  have hclose : Header.elements g.headers "connection" = ["close"] := by
    rw [Header.elements, g.values_headers.2.2]
    decide +kernel
  have hsame : LetterCase.same "close" "close" = true := by decide +kernel
  simp [ResponseHead.wantsClose, responseHead, wantsClose, hclose, closeAfter, hsame]

theorem fits_responseHead {g : Gateway} {method : String} {max : Nat} {framing : Framing}
    (hframing : Framing.ofResponse method g.status g.headers = .ok framing) (hmax : (Utf8.bytes g.head).length ≤ max) :
    (g.responseHead framing).Fits max method where
  isHead := by
    rw [raw_responseHead, ← bytes_lines]
    exact g.lines.isHead (isEmptyLine_statusLine _ _)
  length := by rwa [raw_responseHead]
  parsed := by
    have hstatus := g.status_bounds
    have hparts := HeadLines.response_bytes (by omega) (by omega) g.isReason_reason g.lines rfl
      (show 3 ≤ maxHeaders by decide)
    rw [bytes_lines, headers_lines] at hparts
    rw [raw_responseHead, ResponseHead.ofBytes_of_parsed hparts, hframing, responseHead]
    simp only [Except.map]

theorem exists_read {g : Gateway} {method : String} {max : Nat} {framing : Framing} {s : Source} {rest : List UInt8}
    (hframing : Framing.ofResponse method g.status g.headers = .ok framing) (hmax : (Utf8.bytes g.head).length ≤ max)
    (hs : s.bytes = g.answer ++ rest) :
    ∃ left, ResponseHead.read max method s = .message (g.responseHead framing) left ∧ left.bytes = g.body ++ rest := by
  have hs' : s.bytes = [] ++ ((g.responseHead framing).raw ++ (g.body ++ rest)) := by
    rw [hs, answer, raw_responseHead, List.append_assoc, List.nil_append]
  obtain ⟨left, hleft, -, hread⟩ := ResponseHead.read_of_fits (fits_responseHead hframing hmax) .nil hs'
  exact ⟨left, hread, hleft⟩

/-- **An answer is a whole message that says where it ends**, to any method that is not `HEAD` in whatever letter case.  Its
length is one that a machine word holds, as that of everything in memory is. -/
theorem answer_read (g : Gateway) {method : String} {max : Nat} {s : Source} {rest : List UInt8} (idle : Option Nat)
    (tap : Nat) (hmethod : LetterCase.same method "HEAD" = false) (hsize : (Utf8.bytes g.message).length + 1 < 2 ^ 64)
    (hmax : (Utf8.bytes g.head).length ≤ max) (hs : s.bytes = g.answer ++ rest) :
    ∃ head left p, ResponseHead.read max method s = .message head left ∧
      head.parts.status = (match g with | .unreachable .. => 502 | .timeout .. => 504) ∧
      head.framing = .length ((Utf8.bytes g.message).length + 1) ∧ head.wantsClose = true ∧
      Passage.relay idle (Passage.start tap left) head.framing = .ok p ∧
      p.sink.written = Utf8.bytes g.message ++ [0x0A] ∧ p.source.bytes = rest := by
  have hbody : g.body.length = (Utf8.bytes g.message).length + 1 := by rw [body_eq, List.length_append]; rfl
  rw [← hbody] at hsize
  obtain ⟨left, hread, hleft⟩ := exists_read (framing_headers hmethod hsize) hmax hs
  have hopen : (Passage.start tap left).IsOpen := Passage.isOpen_start tap left
  obtain ⟨p, hpass, hrelay⟩ := Passage.exactly_of_length idle hopen hleft
  refine ⟨g.responseHead _, left, p, hread, ?_, congrArg Framing.length hbody, g.wantsClose_responseHead _, hrelay, ?_,
    hpass.rest hleft⟩
  · cases g with
    | unreachable => rfl
    | timeout => rfl
  · rw [hpass.written hopen, body_eq]
    rfl

/-- Words with line ends and characters of more than one byte in them, and another message behind them. -/
theorem answer_read_two_lines :
    let g := unreachable "127.0.0.1:8080" "refusé\r\n\r\nHTTP/1.1 200 OK"
    let s : Source := ⟨g.answer, [[0x48, 0x54]], .closed⟩
    LetterCase.same "GET" "HEAD" = false ∧ (Utf8.bytes g.message).length + 1 < 2 ^ 64 ∧ (Utf8.bytes g.head).length ≤ 200 ∧
      s.bytes = g.answer ++ [0x48, 0x54] ∧
      ∃ head left p, ResponseHead.read 200 "GET" s = .message head left ∧ head.parts.status = 502 ∧
        head.framing = .length 64 ∧ head.wantsClose = true ∧
        Passage.relay none (Passage.start 0 left) head.framing = .ok p ∧
        p.sink.written = Utf8.bytes g.message ++ [0x0A] ∧ p.source.bytes = [0x48, 0x54] := by
  intro g s
  have hmethod : LetterCase.same "GET" "HEAD" = false := by decide +kernel
  have hlength : (Utf8.bytes g.message).length = 63 := by decide +kernel
  have hmax : (Utf8.bytes g.head).length ≤ 200 := by decide +kernel
  have hs : s.bytes = g.answer ++ [0x48, 0x54] := rfl
  have hsize : (Utf8.bytes g.message).length + 1 < 2 ^ 64 := by rw [hlength]; decide
  have hread := answer_read g none 0 hmethod hsize hmax hs
  rw [hlength] at hread
  exact ⟨hmethod, hsize, hmax, hs, hread⟩

/-- To `head` in lower case there is no body either, and the words are left unread. -/
theorem answer_read_lower_case_head :
    let g := unreachable "a" "b"
    let s : Source := ⟨g.answer, [], .closed⟩
    "head" ≠ "HEAD" ∧ ∃ head left, ResponseHead.read 200 "head" s = .message head left ∧ head.framing = .empty ∧
      left.bytes = g.body := by
  intro g s
  have hbodiless : Framing.isBodiless "head" g.status = true := by decide +kernel
  have hframing : Framing.ofResponse "head" g.status g.headers = .ok .empty := by
    rw [Framing.ofResponse, if_pos hbodiless]
  have hs : s.bytes = g.answer ++ [] := rfl
  have hmax : (Utf8.bytes g.head).length ≤ 200 := by decide +kernel
  obtain ⟨left, hread, hleft⟩ := exists_read hframing hmax hs
  exact ⟨by decide, _, left, hread, rfl, by rw [hleft, List.append_nil]⟩

end Gateway
end SearchTelemetry
