import SearchTelemetry.Proofs.Http.Bodies
import SearchTelemetry.Proofs.Text.Numeral
import SearchTelemetry.Proofs.Text.Utf8
/-!
# Http.Chunks — chunked bodies as their senders write them

A sender writes the size of each chunk in base 16, in letters of either case and behind any number of zeros, and may put an
extension behind it.  The bytes of a chunk may be any, also such as look like a size or like the end of the body: a relay
goes by the sizes alone.  It passes on just the body, and leaves what follows (`relay_chunkedBody`).
-/
namespace SearchTelemetry
namespace Http

/-! ## What a sender writes -/

/-- A line that says `n`: digits, and what a semicolon sets apart from them. -/
structure SizeLine (n : Nat) where
  digits : List Char
  spells : Numeral.SpellsHex digits n
  extension : Option (List Char)
  unbroken : ∀ e ∈ extension, '\n' ∉ e

namespace SizeLine

variable {n : Nat}

/-- The text of the line without its end. -/
def text (l : SizeLine n) : List Char :=
  l.digits ++ match l.extension with
    | none => []
    | some e => ';' :: e

/-- The line, its end included. -/
def bytes (l : SizeLine n) : List UInt8 :=
  Utf8.encode l.text ++ [0x0D, 0x0A]

end SizeLine

/-- A chunk with something in it. -/
structure Chunk where
  data : List UInt8
  size : SizeLine data.length
  full : data ≠ []
  fits : data.length + 2 ≤ Numeral.maxUnsigned 64
  short : size.bytes.length ≤ Passage.maxChunkLine

def Chunk.bytes (c : Chunk) : List UInt8 :=
  c.size.bytes ++ (c.data ++ [0x0D, 0x0A])

/-- A line between the last chunk and the end of the body. -/
structure Trailer where
  text : List UInt8
  full : text ≠ []
  unbroken : 0x0A ∉ text
  short : text.length + 2 ≤ Passage.maxChunkLine

def Trailer.bytes (t : Trailer) : List UInt8 :=
  t.text ++ [0x0D, 0x0A]

/-- Chunks, the last one of size zero, and trailers. -/
structure ChunkedBody where
  chunks : List Chunk
  last : SizeLine 0
  short : last.bytes.length ≤ Passage.maxChunkLine
  trailers : List Trailer

def ChunkedBody.bytes (b : ChunkedBody) : List UInt8 :=
  b.chunks.flatMap Chunk.bytes ++ (b.last.bytes ++ (b.trailers.flatMap Trailer.bytes ++ [0x0D, 0x0A]))

/-! ## What a relay finds -/

theorem encode_crlf : Utf8.encode ['\r', '\n'] = [0x0D, 0x0A] := by
  decide

theorem isLine_crlf {t : List UInt8} (h : 0x0A ∉ t) : IsLine (t ++ [0x0D, 0x0A]) := by
  refine ⟨t ++ [0x0D], ?_, ?_⟩
  · simpa using h
  · rw [List.append_assoc]
    rfl

/-- A text has a line feed among its bytes only if it has one among its characters. -/
theorem lineFeed_not_mem_encode {cs : List Char} (h : '\n' ∉ cs) : 0x0A ∉ Utf8.encode cs := by
  intro hmem
  obtain ⟨c, hc, hb⟩ := List.mem_flatMap.1 hmem
  by_cases hlt : c.toNat < 0x80
  · rw [Utf8.encodeChar_of_lt hlt, List.mem_singleton, ← UInt8.toNat_inj, Utf8.toNat_toUInt8 (by omega)] at hb
    have heq : c = '\n' := Char.toNat_inj.1 hb.symm
    exact h (heq ▸ hc)
  · have hge := Utf8.mem_encodeChar hlt hb
    simp at hge

namespace SizeLine

variable {n : Nat} (l : SizeLine n)

theorem bytes_eq : l.bytes = Utf8.encode (l.text ++ ['\r', '\n']) := by
  rw [Utf8.encode_append, encode_crlf, bytes]

theorem lineFeed_not_mem_text : '\n' ∉ l.text := by
  rw [text, List.mem_append, not_or]
  constructor
  · intro hmem
    have := l.spells.toNat_of_mem hmem
    simp at this
  · cases h : l.extension with
    | none => simp
    | some e => simpa using l.unbroken e h

theorem isLine : IsLine l.bytes :=
  isLine_crlf (lineFeed_not_mem_encode l.lineFeed_not_mem_text)

/-- The digits end where the extension or the line's end begins. -/
theorem takeWhile_digits :
    (l.text ++ ['\r', '\n']).takeWhile (fun c => c != ';' && c != '\r' && c != '\n') = l.digits := by
  have hdigits : ∀ c ∈ l.digits, (c != ';' && c != '\r' && c != '\n') = true := by
    intro c hc
    have := l.spells.toNat_of_mem hc
    simp only [Bool.and_eq_true, bne_iff_ne]
    refine ⟨⟨?_, ?_⟩, ?_⟩ <;> rintro rfl <;> simp at this
  rw [text, List.append_assoc, List.takeWhile_append_of_pos hdigits]
  cases l.extension <;> simp

/-- **The size is read from its line**, if the word holds it. -/
theorem chunkSize? (h : n < Numeral.pow2 64) : Passage.chunkSize? l.bytes = some n := by
  rw [Passage.chunkSize?, bytes_eq, Utf8.decode_encode, Option.bind_some, takeWhile_digits,
    Blank.trim_of_forall fun c hc => l.spells.not_isBlank hc]
  exact Numeral.hex?_of_spellsHex l.spells h

end SizeLine

theorem Trailer.isChunkLine (t : Trailer) : IsChunkLine t.bytes :=
  ⟨isLine_crlf t.unbroken, by simpa [bytes] using t.short⟩

theorem Trailer.isEmptyLine (t : Trailer) : isEmptyLine t.bytes = false := by
  have hlen := List.length_pos_iff.2 t.full
  rw [Bool.eq_false_iff]
  intro hempty
  have := (length_of_isEmptyLine hempty).2
  simp only [bytes, List.length_append, List.length_cons, List.length_nil] at this
  omega

theorem isBlock_trailers (ts : List Trailer) : IsBlock IsChunkLine (ts.flatMap Trailer.bytes ++ [0x0D, 0x0A]) := by
  induction ts with
  | nil => exact .last ⟨isLine_crlf (t := []) (by simp), by decide⟩ rfl
  | cons t ts ih =>
    rw [List.flatMap_cons, List.append_assoc]
    exact .cons t.isChunkLine t.isEmptyLine ih

/-- What a sender writes is what a relay takes for a chunked body. -/
theorem isChunked_bytes (b : ChunkedBody) : IsChunked b.bytes := by
  obtain ⟨chunks, last, hshort, trailers⟩ := b
  -- by the chunks: each size is read back from its line, so that what is in the chunk is never looked at
  show IsChunked (chunks.flatMap Chunk.bytes ++ _)
  induction chunks with
  | nil =>
    rw [List.flatMap_nil, List.nil_append]
    exact .last ⟨last.isLine, hshort⟩ (last.chunkSize? (by decide)) (isBlock_trailers trailers)
  | cons c cs ih =>
    have hword : c.data.length < Numeral.pow2 64 := by
      have := c.fits
      unfold Numeral.maxUnsigned at this
      omega
    have hdata : (c.data ++ [0x0D, 0x0A]).length = c.data.length + 2 := List.length_append
    rw [List.flatMap_cons, Chunk.bytes, List.append_assoc, List.append_assoc]
    exact .chunk ⟨c.size.isLine, c.short⟩ (c.size.chunkSize? hword) (mt List.length_eq_zero_iff.1 c.full) c.fits hdata ih

/-- **A chunked body is passed on whole, and nothing else is**: the relay ends well, has written just the body, and leaves
just what follows it, wherever the stream is cut and whatever is in the chunks or behind the body. -/
theorem relay_chunkedBody (b : ChunkedBody) (more : List UInt8) (idle : Option Nat) (tap : Nat) {s : Source}
    (hs : s.bytes = b.bytes ++ more) :
    ∃ p, Passage.relay idle (Passage.start tap s) .chunked = .ok p ∧ p.sink.written = b.bytes ∧ p.source.bytes = more ∧
      p.source.ending = s.ending ∧ p.tap = (Tap.ofLimit tap).observe b.bytes := by
  have hopen := Passage.isOpen_start tap s
  obtain ⟨p, hpass, hp⟩ : ∃ p, (Passage.start tap s).Passes b.bytes p ∧ Passage.chunks idle (.start tap s) = .ok p :=
    Passage.chunks_of_isChunked (isChunked_bytes b) hopen hs
  exact ⟨p, hp, hpass.written hopen, hpass.rest hs, hpass.ending, hpass.tap⟩

/-- Eleven bytes that look like the end of a body, in one chunk, and a trailer. -/
def disguised : ChunkedBody where
  chunks := [{
    data := Utf8.bytes "0\r\n\r\nB\r\n0\r\n"
    size := { digits := "00B".toList, spells := ⟨2, by decide⟩, extension := some "é=1".toList, unbroken := by decide }
    full := by decide
    fits := by decide
    short := by decide }]
  last := { digits := "000".toList, spells := ⟨2, by decide⟩, extension := none, unbroken := by decide }
  short := by decide
  trailers := [{ text := Utf8.bytes "T: 1", full := by decide, unbroken := by decide, short := by decide }]

theorem relay_chunkedBody_disguised :
    disguised.bytes = Utf8.bytes "00B;é=1\r\n0\r\n\r\nB\r\n0\r\n\r\n000\r\nT: 1\r\n\r\n" ∧
      ∃ p, Passage.relay none (Passage.start 4 (.ofBytes 3 (disguised.bytes ++ Utf8.bytes "0\r\n\r\n") .quiet)) .chunked = .ok p ∧
        p.sink.written = disguised.bytes ∧ p.source.bytes = Utf8.bytes "0\r\n\r\n" ∧ p.source.ending = .quiet ∧
        p.tap = (Tap.ofLimit 4).observe disguised.bytes :=
  ⟨by decide, relay_chunkedBody disguised (Utf8.bytes "0\r\n\r\n") none 4 (Source.bytes_ofBytes (by decide) _ .quiet)⟩

end Http
end SearchTelemetry
