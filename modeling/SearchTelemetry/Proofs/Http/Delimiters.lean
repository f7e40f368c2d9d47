import SearchTelemetry.Proofs.Http.FieldLines
import SearchTelemetry.Proofs.Http.Room
import SearchTelemetry.Proofs.Http.Sizes
/-!
# Http.Delimiters — the delimiters that are accepted

Bodies end where chunk sizes and content lengths say.  Both are read by way of the same fields of digits, so both are read
more loosely than the grammar has them, and it is said here how much: which chunked bodies and which lengths are accepted,
which of them the grammar has too, and what becomes of the others (`delimiters_read`).
-/
namespace SearchTelemetry
namespace Http

variable {l bs more : List UInt8} {m n : Nat}

/-! ## Lengths -/

namespace Syntax.HeadLines

/-- There is a content length, and each is read as a field of digits that is `n`. -/
structure ReadLength (ls : HeadLines) (n : Nat) : Prop where
  named : ∃ l ∈ ls.fields, l.IsNamed "content-length"
  read : ∀ l ∈ ls.fields, l.IsNamed "content-length" → ∃ f, ReadsLength (trimGaps l.value) n f ∧
    (IsDecimal (trimGaps l.value) n ↔ f.IsBare ∧ f.trail = [])

/-- A content length is not read as a number. -/
def HasBadLength (ls : HeadLines) : Prop :=
  ∃ l ∈ ls.fields, l.IsNamed "content-length" ∧ ∀ n f, ¬ReadsLength (trimGaps l.value) n f

variable {ls : HeadLines} {absent : Framing}

theorem readLength_of_agree (h : Framing.Agree (Header.values ls.headers "content-length") n) : ls.ReadLength n where
  named := by
    obtain ⟨v, hv⟩ := List.exists_mem_of_ne_nil _ h.1
    obtain ⟨l, hl, hnamed, -⟩ := mem_values.1 hv
    exact ⟨l, hl, hnamed⟩
  read l hl hnamed := by
    obtain ⟨f, hf⟩ := denotes_header_iff.1 (h.2 l.header.2 (mem_values.2 ⟨l, hl, hnamed, rfl⟩))
    exact ⟨f, hf, hf.isDecimal_iff⟩

theorem disagree_of_hasBadLength (h : ls.HasBadLength) : Framing.Disagree (Header.values ls.headers "content-length") := by
  obtain ⟨l, hl, hnamed, hbad⟩ := h
  refine .inl ⟨l.header.2, mem_values.2 ⟨l, hl, hnamed, rfl⟩, fun n hn => ?_⟩
  obtain ⟨f, hf⟩ := denotes_header_iff.1 hn
  exact hbad n f hf

/-- What the framing of a message that has a body owes to the lines of its head. -/
structure Settles (ls : HeadLines) (r : Except Fault Framing) : Prop where
  length : ∀ n, r = .ok (.length n) → ls.ReadLength n
  refused : ¬Framing.NamesChunked ls.headers → ls.HasBadLength → ∃ why, r = .error (.protocol why)

theorem settles_ofHeaders (habsent : absent = .empty ∨ absent = .untilClose) (ls : HeadLines) :
    ls.Settles (Framing.ofHeaders absent ls.headers) where
  length n h := readLength_of_agree (((Framing.decides_ofHeaders habsent ls.headers).length n).1 h).2.2
  refused hno hbad := by
    have hdecides := Framing.decides_ofHeaders habsent ls.headers
    obtain ⟨fault, hfault⟩ := hdecides.refused.2 ⟨hno, disagree_of_hasBadLength hbad⟩
    obtain ⟨why, rfl⟩ := hdecides.protocol fault hfault
    exact ⟨why, hfault⟩

end Syntax.HeadLines

variable {max : Nat} {s rest : Source} {raw : List UInt8} {method : String}

theorem Reading.andThen_of_error {α β : Type} {r : Reading α} {f : α → Except Fault β} {a : α} {fault : Fault}
    (hr : r = .message a rest) (hf : f a = .error fault) : r.andThen f = .refused fault := by
  rw [hr]
  unfold Reading.andThen
  dsimp only
  rw [hf]

namespace RequestHead

theorem ofBytes_of_parsed {parts : Syntax.RequestParts} (h : Syntax.request raw = .ok (parts, [])) :
    ofBytes raw = (Framing.ofHeaders .empty parts.headers).map fun framing => { raw, parts, framing } := by
  rw [← Framing.ofRequest_eq]
  unfold ofBytes
  rw [h]

/-- A request that is accepted with a length has lines that say it. -/
theorem exists_readLength {head : RequestHead} (h : read max s = .message head rest) (hn : head.framing = .length n) :
    ∃ ls : Syntax.HeadLines, ls.bytes = head.raw ∧ ls.headers = head.parts.headers ∧ ls.ReadLength n := by
  obtain ⟨raw, hraw, hparsed⟩ := Reading.exists_of_andThen h
  obtain ⟨_, -, hhead, -⟩ := readHead_message hraw
  obtain rfl := raw_of_ofBytes hparsed
  have hparts := parsed_of_ofBytes hhead hparsed
  obtain ⟨ls, hbytes, hheaders⟩ := Syntax.exists_of_request hhead hparts
  rw [ofBytes_of_parsed hparts] at hparsed
  obtain ⟨framing, hframing, heq⟩ := exists_of_map_eq_ok hparsed
  obtain rfl : framing = .length n := (congrArg RequestHead.framing heq).trans hn
  rw [← hheaders] at hframing
  exact ⟨ls, hbytes, hheaders, (Syntax.HeadLines.settles_ofHeaders (.inl rfl) ls).length n hframing⟩

/-- One with a length that cannot be read is refused. -/
theorem exists_of_hasBadLength {parts : Syntax.RequestParts} (hraw : readHead max s = .message raw rest)
    (hparts : Syntax.request raw = .ok (parts, [])) (hno : ¬Framing.NamesChunked parts.headers) :
    ∃ ls : Syntax.HeadLines, ls.bytes = raw ∧ ls.headers = parts.headers ∧
      (ls.HasBadLength → ∃ why, read max s = .refused (.protocol why)) := by
  obtain ⟨_, -, hhead, -⟩ := readHead_message hraw
  obtain ⟨ls, hbytes, hheaders⟩ := Syntax.exists_of_request hhead hparts
  refine ⟨ls, hbytes, hheaders, fun hbad => ?_⟩
  rw [← hheaders] at hno
  obtain ⟨why, hwhy⟩ := (Syntax.HeadLines.settles_ofHeaders (.inl rfl) ls).refused hno hbad
  refine ⟨why, Reading.andThen_of_error hraw ?_⟩
  rw [ofBytes_of_parsed hparts, ← hheaders, hwhy]
  rfl

end RequestHead

namespace ResponseHead

theorem ofBytes_of_parsed {parts : Syntax.ResponseParts} (h : Syntax.response raw = .ok (parts, [])) :
    ofBytes method raw =
      (Framing.ofResponse method parts.status parts.headers).map fun framing => { raw, parts, framing } := by
  unfold ofBytes
  rw [h]

theorem ofResponse_of_hasBody {status : Nat} (h : ¬Framing.HasNoBody method status) (headers : List Header) :
    Framing.ofResponse method status headers = Framing.ofHeaders .untilClose headers := by
  rw [Framing.ofResponse_eq, if_neg (mt Framing.isBodiless_iff.1 h)]

/-- A response that is accepted with a length has lines that say it. -/
theorem exists_readLength {head : ResponseHead} (h : read max method s = .message head rest) (hn : head.framing = .length n) :
    ∃ ls : Syntax.HeadLines, ls.bytes = head.raw ∧ ls.headers = head.parts.headers ∧ ls.ReadLength n := by
  unfold read at h
  split at h
  · cases h
  · obtain ⟨raw, hraw, hparsed⟩ := Reading.exists_of_andThen h
    obtain ⟨_, -, hhead, -⟩ := readHead_message hraw
    obtain rfl := raw_of_ofBytes hparsed
    have hparts := parsed_of_ofBytes hhead hparsed
    obtain ⟨ls, hbytes, hheaders⟩ := Syntax.exists_of_response hhead hparts
    rw [ofBytes_of_parsed hparts] at hparsed
    obtain ⟨framing, hframing, heq⟩ := exists_of_map_eq_ok hparsed
    obtain rfl : framing = .length n := (congrArg ResponseHead.framing heq).trans hn
    by_cases hbody : Framing.HasNoBody method head.parts.status
    · rw [Framing.ofResponse_eq, if_pos (Framing.isBodiless_iff.2 hbody)] at hframing
      cases hframing
    · rw [ofResponse_of_hasBody hbody, ← hheaders] at hframing
      exact ⟨ls, hbytes, hheaders, (Syntax.HeadLines.settles_ofHeaders (.inr rfl) ls).length n hframing⟩

/-- One with a body and a length that cannot be read is refused. -/
theorem exists_of_hasBadLength {parts : Syntax.ResponseParts} (hraw : readHead max s = .message raw rest)
    (hparts : Syntax.response raw = .ok (parts, [])) (hbody : ¬Framing.HasNoBody method parts.status)
    (hno : ¬Framing.NamesChunked parts.headers) :
    ∃ ls : Syntax.HeadLines, ls.bytes = raw ∧ ls.headers = parts.headers ∧
      (ls.HasBadLength → ∃ why, read max method s = .refused (.protocol why)) := by
  obtain ⟨_, -, hhead, -⟩ := readHead_message hraw
  obtain ⟨ls, hbytes, hheaders⟩ := Syntax.exists_of_response hhead hparts
  refine ⟨ls, hbytes, hheaders, fun hbad => ?_⟩
  rw [← hheaders] at hno
  obtain ⟨why, hwhy⟩ := (Syntax.HeadLines.settles_ofHeaders (.inr rfl) ls).refused hno hbad
  have hparsed : (readHead max s).andThen (ofBytes method) = .refused (.protocol why) := by
    refine Reading.andThen_of_error hraw ?_
    rw [ofBytes_of_parsed hparts, ofResponse_of_hasBody hbody, ← hheaders, hwhy]
    rfl
  refine ⟨why, ?_⟩
  unfold read
  rw [hparsed]

end ResponseHead

/-! ## All delimiters -/

open Passage (relay into)

/-- What becomes of the delimiters in these bytes, be they those of a body or of a head. -/
structure DelimitersRead (idle : Option Nat) (tap max : Nat) (method : String) (s : Source) : Prop where
  /-- A chunked body that is passed on is one that can be read, and if it is plain it is one by the grammar. -/
  passed : ∀ room p, relay idle (into room tap s) .chunked = .ok p →
    ∃ b : BodyRead, p.sink.written = b.bytes ∧ s.bytes = b.bytes ++ p.source.bytes ∧ (IsProper b.bytes ↔ b.IsPlain)
  /-- No body that can be read is refused, plain or not. -/
  accepted : ∀ (b : BodyRead) (more : List UInt8), s.bytes = b.bytes ++ more →
    ∃ p, relay idle (into none tap s) .chunked = .ok p ∧ p.sink.written = b.bytes ∧ p.source.bytes = more
  /-- A line without a size is named by the fault of the relay, unless the sink is full. -/
  badSize : ∀ (front : List ChunkRead) (l more : List UInt8) (room : Option Nat),
    s.bytes = front.flatMap ChunkRead.bytes ++ (l ++ more) → IsChunkLine l → IsBadSize l →
    (relay idle (into room tap s) .chunked).fault? = some (.read (.badChunkLine l)) ∨
      room ≠ none ∧ (relay idle (into room tap s) .chunked).fault? = some .write
  request : ∀ head rest n, RequestHead.read max s = .message head rest → head.framing = .length n →
    ∃ ls : Syntax.HeadLines, ls.bytes = head.raw ∧ ls.headers = head.parts.headers ∧ ls.ReadLength n
  badRequest : ∀ raw rest parts, readHead max s = .message raw rest → Syntax.request raw = .ok (parts, []) →
    ¬Framing.NamesChunked parts.headers →
    ∃ ls : Syntax.HeadLines, ls.bytes = raw ∧ ls.headers = parts.headers ∧
      (ls.HasBadLength → ∃ why, RequestHead.read max s = .refused (.protocol why))
  response : ∀ head rest n, ResponseHead.read max method s = .message head rest → head.framing = .length n →
    ∃ ls : Syntax.HeadLines, ls.bytes = head.raw ∧ ls.headers = head.parts.headers ∧ ls.ReadLength n
  badResponse : ∀ raw rest parts, readHead max s = .message raw rest → Syntax.response raw = .ok (parts, []) →
    ¬Framing.HasNoBody method parts.status → ¬Framing.NamesChunked parts.headers →
    ∃ ls : Syntax.HeadLines, ls.bytes = raw ∧ ls.headers = parts.headers ∧
      (ls.HasBadLength → ∃ why, ResponseHead.read max method s = .refused (.protocol why))

theorem exists_of_relay_into {idle : Option Nat} {tap : Nat} {room : Option Nat} {p : Passage}
    (h : relay idle (into room tap s) .chunked = .ok p) :
    ∃ b : BodyRead, p.sink.written = b.bytes ∧ s.bytes = b.bytes ++ p.source.bytes := by
  rcases Passage.into_cases idle .chunked tap room s with ⟨hagrees, -⟩ | ⟨n, seen, -, -, hfault, -⟩
  · rw [h] at hagrees
    -- a relay into a sink with room for all is as good as one without limit
    cases hfree : relay idle (into none tap s) .chunked with
    | error e =>
      have hnone := hagrees.fault
      rw [hfree] at hnone
      cases hnone
    | ok q =>
      have hopen : (into none tap s).IsOpen := rfl
      obtain ⟨bs, hbody, hpass⟩ := Passage.relay_ok hopen hfree
      have hbody : IsChunked bs := hbody
      obtain ⟨b, rfl⟩ := hbody.exists_bodyRead
      rw [hfree] at hagrees
      have hwritten : p.sink.written = q.sink.written := hagrees.written
      have hrest : p.source.bytes = q.source.bytes := (hagrees.seen nofun).2
      refine ⟨b, hwritten.trans (hpass.written hopen), ?_⟩
      rw [hrest]
      exact hpass.bytes
  · rw [h] at hfault
    cases hfault

theorem exists_relay_of_bodyRead (b : BodyRead) (idle : Option Nat) (tap : Nat) (hs : s.bytes = b.bytes ++ more) :
    ∃ p, relay idle (into none tap s) .chunked = .ok p ∧ p.sink.written = b.bytes ∧ p.source.bytes = more := by
  have hopen : (into none tap s).IsOpen := rfl
  obtain ⟨p, hpass, hp⟩ := Passage.chunks_of_isChunked b.isChunked hopen hs
  exact ⟨p, hp, hpass.written hopen, hpass.rest hs⟩

theorem fault_of_isBadSize {idle : Option Nat} {tap : Nat} (front : List ChunkRead) (hl : IsChunkLine l) (hbad : IsBadSize l)
    (hs : s.bytes = front.flatMap ChunkRead.bytes ++ (l ++ more)) (room : Option Nat) :
    (relay idle (into room tap s) .chunked).fault? = some (.read (.badChunkLine l)) ∨
      room ≠ none ∧ (relay idle (into room tap s) .chunked).fault? = some .write := by
  have hopen : (into none tap s).IsOpen := rfl
  obtain ⟨q, -, heq⟩ := Passage.chunks_of_isBadSize idle front hopen hl hbad hs
  have hfree : (relay idle (into none tap s) .chunked).fault? = some (.read (.badChunkLine l)) := by
    show (Passage.chunks idle (into none tap s)).fault? = _
    rw [heq]
    rfl
  rcases Passage.into_cases idle .chunked tap room s with ⟨hagrees, -⟩ | ⟨n, seen, hroom, -, hfault, -⟩
  · exact .inl (hagrees.fault.trans hfree)
  · exact .inr ⟨hroom ▸ nofun, hfault⟩

/-- **Of the delimiters just these are accepted.**  The plain ones among them are those that the grammar has. -/
theorem delimiters_read (idle : Option Nat) (tap max : Nat) (method : String) (s : Source) :
    DelimitersRead idle tap max method s where
  passed room p h := by
    obtain ⟨b, hwritten, hs⟩ := exists_of_relay_into h
    exact ⟨b, hwritten, hs, isProper_bytes_iff b⟩
  accepted b more hs := exists_relay_of_bodyRead b idle tap hs
  badSize front l more room hs hl hbad := fault_of_isBadSize front hl hbad hs room
  request head rest n h hn := RequestHead.exists_readLength h hn
  badRequest raw rest parts hraw hparts hno := RequestHead.exists_of_hasBadLength hraw hparts hno
  response head rest n h hn := ResponseHead.exists_readLength h hn
  badResponse raw rest parts hraw hparts hbody hno := ResponseHead.exists_of_hasBadLength hraw hparts hbody hno

/-! ## One of each kind that the grammar does not have -/

/-- A word in one chunk, with or without a plus sign in front of its size, and two bytes behind it. -/
def greeting (signed : Bool) (closing : List UInt8) (two : closing.length = 2) : BodyRead where
  chunks := [{
    data := Utf8.bytes "hello"
    size :=
      { field := ⟨[], signed, ['5'], [], Blank.all_nil, by decide, List.all_eq_true.1 rfl, Blank.all_nil⟩
        tail := ['\r', '\n']
        inFront := List.all_eq_true.1 (by cases signed <;> rfl)
        stops := fun _ hc => Option.some.inj hc ▸ rfl
        spelled := Numeral.hexDigits?_eq_some.1 rfl
        fits := by decide }
    closing := closing
    isChunkLine := by
      cases signed
      · exact ⟨⟨[0x35, 0x0D], by decide, by decide⟩, by decide⟩
      · exact ⟨⟨[0x2B, 0x35, 0x0D], by decide, by decide⟩, by decide⟩
    full := by decide
    fits := by decide
    two := two }]
  last :=
    { field := ⟨[], false, ['0'], [], Blank.all_nil, by decide, List.all_eq_true.1 rfl, Blank.all_nil⟩
      tail := ['\r', '\n']
      inFront := List.all_eq_true.1 rfl
      stops := fun _ hc => Option.some.inj hc ▸ rfl
      spelled := Numeral.hexDigits?_eq_some.1 rfl
      fits := by decide }
  isChunkLine := ⟨⟨[0x30, 0x0D], by decide, by decide⟩, by decide⟩
  trailers := [0x0D, 0x0A]
  isBlock := .last ⟨⟨[0x0D], by decide, rfl⟩, by decide⟩ rfl

/-- It is a body by the grammar in one case only. -/
theorem isProper_greeting_iff {signed : Bool} {closing : List UInt8} {two : closing.length = 2} :
    IsProper (greeting signed closing two).bytes ↔ signed = false ∧ closing = [0x0D, 0x0A] := by
  rw [isProper_bytes_iff]
  constructor
  · rintro ⟨hchunks, -⟩
    obtain ⟨hsize, hclosing⟩ := hchunks _ (List.mem_singleton_self _)
    exact ⟨hsize.bare.2, hclosing⟩
  · rintro ⟨rfl, rfl⟩
    refine ⟨?_, ⟨rfl, rfl⟩, List.forall_mem_nil _, .inr (.inl rfl)⟩
    rintro c hc
    obtain rfl := List.mem_singleton.1 hc
    exact ⟨⟨⟨rfl, rfl⟩, List.forall_mem_nil _, .inr (.inl rfl)⟩, rfl⟩

theorem not_isDecimal_plus : ¬IsDecimal (Utf8.bytes "+5") n := by
  rintro ⟨digits, -, hdigits, hbytes, -⟩
  obtain rfl : ['+', '5'] = digits := Utf8.encode_inj hbytes
  exact absurd (hdigits '+' List.mem_cons_self) (by decide)

/-- A head with a plus sign in front of its length. -/
def signedHead : List UInt8 :=
  Utf8.bytes "PUT / HTTP/1.1\r\nContent-Length: +5\r\n\r\n"

theorem isHead_signedHead : IsHead signedHead := by
  let first := Utf8.bytes "PUT / HTTP/1.1\r"
  let second := Utf8.bytes "Content-Length: +5\r"
  have hlines : signedHead = (first ++ [0x0A]) ++ ((second ++ [0x0A]) ++ [0x0D, 0x0A]) := by decide +kernel
  rw [hlines]
  refine .cons ⟨first, by decide +kernel, rfl⟩ (by decide +kernel) ?_
  refine .cons ⟨second, by decide +kernel, rfl⟩ (by decide +kernel) ?_
  exact .last ⟨[0x0D], by decide, rfl⟩ rfl

theorem exists_read_signedHead (hs : s.bytes = signedHead ++ []) :
    ∃ h rest, RequestHead.read 64 s = .message h rest ∧ h.framing = .length 5 ∧
      h.parts.headers = [("Content-Length", "+5")] := by
  have hlen : signedHead.length ≤ 64 := by decide +kernel
  obtain ⟨rest, -, -, hread⟩ := readHead_of_isHead .nil isHead_signedHead hlen hs
  let h : RequestHead := ⟨signedHead, ⟨"PUT", "/", 1, [("Content-Length", "+5")]⟩, .length 5⟩
  have hparsed : (RequestHead.ofBytes signedHead).toOption = some h := by decide +kernel
  exact ⟨h, rest, Reading.andThen_of_message hread (ok_of_toOption hparsed), rfl, rfl⟩

/-- **A plus sign is accepted in front of a size and of a length, and so is any pair of bytes behind the data of a chunk.** -/
theorem improper_accepted :
    let signed := Utf8.bytes "+5\r\nhello\r\n0\r\n\r\n"
    let unclosed := Utf8.bytes "5\r\nhelloXX0\r\n\r\n"
    let head := Utf8.bytes "PUT / HTTP/1.1\r\nContent-Length: +5\r\n\r\n"
    (∃ p, relay none (into none 64 (.ofBytes 8192 signed .closed)) .chunked = .ok p ∧ p.sink.written = signed) ∧
      ¬IsProper signed ∧
      (∃ p, relay none (into none 64 (.ofBytes 8192 unclosed .closed)) .chunked = .ok p ∧ p.sink.written = unclosed) ∧
      ¬IsProper unclosed ∧
      (∃ h rest, RequestHead.read 64 (.ofBytes 8192 head .closed) = .message h rest ∧ h.framing = .length 5 ∧
        h.parts.headers = [("Content-Length", "+5")]) ∧
      ∀ n, ¬IsDecimal (Utf8.bytes "+5") n := by
  intro signed unclosed head
  have hbytes : ∀ bs, (Source.ofBytes 8192 bs .closed).bytes = bs ++ [] := fun bs => by
    rw [List.append_nil]
    exact Source.bytes_ofBytes (by decide) bs .closed
  have hsigned : signed = (greeting true [0x0D, 0x0A] rfl).bytes := by decide
  have hunclosed : unclosed = (greeting false [0x58, 0x58] rfl).bytes := by decide
  refine ⟨?_, ?_, ?_, ?_, ?_, fun n => not_isDecimal_plus⟩
  · obtain ⟨p, hp, hwritten, -⟩ := exists_relay_of_bodyRead (greeting true [0x0D, 0x0A] rfl) none 64 (hbytes _)
    exact ⟨p, hsigned ▸ hp, hsigned ▸ hwritten⟩
  · rw [hsigned, isProper_greeting_iff]
    decide
  · obtain ⟨p, hp, hwritten, -⟩ := exists_relay_of_bodyRead (greeting false [0x58, 0x58] rfl) none 64 (hbytes _)
    exact ⟨p, hunclosed ▸ hp, hunclosed ▸ hwritten⟩
  · rw [hunclosed, isProper_greeting_iff]
    decide
  · exact exists_read_signedHead (hbytes signedHead)

end Http
end SearchTelemetry
