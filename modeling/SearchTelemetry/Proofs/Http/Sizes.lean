import SearchTelemetry.Proofs.Http.Chunks
import SearchTelemetry.Proofs.Http.WholeHeads
import SearchTelemetry.Proofs.Text.Decoded
import SearchTelemetry.Proofs.Text.NumberField
/-!
# Http.Sizes — the chunked bodies that are read, and those of the grammar

`IsProper` is a chunked body by its grammar: each size begins its line, and each chunk ends with its CRLF.  A relay takes more
than that for a body.  `BodyRead` has all that it takes (`IsChunked.exists_bodyRead`), part by part, so that it can be said
which parts are to blame: a blank or a plus sign in front of the digits, a blank behind them that is no space or tab, text
that a lone carriage return sets apart from them, and two bytes behind the data that are no CRLF (`isProper_bytes_iff`).
-/
namespace SearchTelemetry
namespace Http

open Numeral (Field isHexDigit SpellsHex)

variable {l bs more : List UInt8} {m n : Nat}

/-! ## The grammar -/

/-- A size line: digits in base 16, gaps, and the end of the line, which an extension may come before. -/
def IsSizeLine (l : List UInt8) (n : Nat) : Prop :=
  ∃ (digits : List Char) (gaps rest : List UInt8), l = Utf8.encode digits ++ (gaps ++ rest) ∧ SpellsHex digits n ∧
    (∀ b ∈ gaps, Syntax.isGap b = true) ∧ (isEmptyLine rest = true ∨ ∃ ext, IsLine ext ∧ rest = 0x3B :: ext)

/-- A chunked body: chunks, each in front of a CRLF, a size line of zero, and lines up to an empty one. -/
inductive IsProper : List UInt8 → Prop where
  | last {l ts : List UInt8} : IsSizeLine l 0 → IsBlock IsLine ts → IsProper (l ++ ts)
  | chunk {l data bs : List UInt8} : IsSizeLine l data.length → data ≠ [] → IsProper bs →
      IsProper (l ++ (data ++ ([0x0D, 0x0A] ++ bs)))

theorem IsLine.append {a b : List UInt8} (ha : 0x0A ∉ a) (h : IsLine b) : IsLine (a ++ b) := by
  obtain ⟨t, ht, rfl⟩ := h
  refine ⟨a ++ t, ?_, (List.append_assoc _ _ _).symm⟩
  rw [List.mem_append, not_or]
  exact ⟨ha, ht⟩

theorem IsLine.of_append {a b : List UInt8} (h : IsLine (a ++ b)) (hb : b ≠ []) : IsLine b := by
  obtain ⟨t, ht, heq⟩ := h
  rcases List.eq_nil_or_concat b with rfl | ⟨b', x, rfl⟩
  · exact absurd rfl hb
  · rw [List.concat_eq_append, ← List.append_assoc] at heq
    obtain ⟨rfl, hx⟩ := List.append_inj' heq rfl
    refine ⟨b', fun hmem => ht (List.mem_append_right a hmem), ?_⟩
    rw [List.concat_eq_append, hx]

theorem lineFeed_not_mem_of_spellsHex {digits : List Char} (h : SpellsHex digits n) : 0x0A ∉ Utf8.encode digits := by
  refine lineFeed_not_mem_encode fun hmem => ?_
  have := h.toNat_of_mem hmem
  simp at this

theorem IsSizeLine.isLine (h : IsSizeLine l n) : IsLine l := by
  obtain ⟨digits, gaps, rest, rfl, hdigits, hgaps, hrest⟩ := h
  refine .append (lineFeed_not_mem_of_spellsHex hdigits) (.append (fun hmem => absurd (hgaps _ hmem) (by decide)) ?_)
  rcases hrest with hempty | ⟨ext, hext, rfl⟩
  · exact isLine_of_isEmptyLine hempty
  · have hsemicolon : 0x0A ∉ [(0x3B : UInt8)] := by decide
    exact hext.append hsemicolon

/-! ## Sizes that are read -/

/-- A character of the size in its line: no semicolon, carriage return or line feed. -/
def inSize (c : Char) : Bool :=
  c != ';' && c != '\r' && c != '\n'

/-- The text behind a size and its gaps, by the grammar: the end of the line, or an extension first. -/
def IsSizeEnd (tail : List Char) : Prop :=
  tail = ['\n'] ∨ tail = ['\r', '\n'] ∨ tail.head? = some ';'

/-- A size as it is read: a field of digits up to the first character that ends it, and the rest of the line. -/
structure SizeRead (n : Nat) where
  field : Field isHexDigit
  tail : List Char
  inFront : ∀ c ∈ field.text, inSize c = true
  stops : ∀ c ∈ tail.head?, inSize c = false
  spelled : SpellsHex field.digits n
  fits : n < Numeral.pow2 64

namespace SizeRead

variable (r : SizeRead n)

def text : List Char :=
  r.field.text ++ r.tail

def bytes : List UInt8 :=
  Utf8.encode r.text

/-- The digits begin the line, and behind them there are gaps and an extension at the most. -/
structure IsPlain : Prop where
  bare : r.field.IsBare
  gaps : ∀ c ∈ r.field.trail, c = ' ' ∨ c = '\t'
  ends : IsSizeEnd r.tail

/-- What stands up to the first character that ends a size is the field. -/
theorem eq_of_append {cs rest : List Char} (hcs : ∀ c ∈ cs, inSize c = true) (hrest : ∀ c ∈ rest.head?, inSize c = false)
    (h : r.text = cs ++ rest) : r.field.text = cs ∧ r.tail = rest := by
  have hfield : r.field.text = cs := by
    rw [← takeWhile_append_stop r.inFront r.stops, ← takeWhile_append_stop hcs hrest]
    exact congrArg _ h
  refine ⟨hfield, ?_⟩
  unfold text at h
  rw [hfield] at h
  exact List.append_cancel_left h

end SizeRead

/-- **The lines that a relay reads a size from.** -/
theorem chunkSize?_eq_some : Passage.chunkSize? l = some n ↔ ∃ r : SizeRead n, r.bytes = l := by
  unfold Passage.chunkSize?
  rw [Option.bind_eq_some_iff]
  constructor
  · rintro ⟨cs, hcs, hsize⟩
    obtain ⟨f, htext, hspelled, hfits⟩ := Numeral.hex?_trim_eq_some.1 hsize
    have htext : f.text = cs.takeWhile inSize := htext
    refine ⟨⟨f, cs.dropWhile inSize, ?_, ?_, hspelled, hfits⟩, ?_⟩
    · rw [htext]
      exact fun c hc => List.mem_takeWhile_imp hc
    · intro c hc
      have hstop := List.head?_dropWhile_not inSize cs
      rw [Option.mem_def.1 hc] at hstop
      exact hstop
    · show Utf8.encode (f.text ++ cs.dropWhile inSize) = l
      rw [htext, List.takeWhile_append_dropWhile]
      exact Utf8.encode_of_decode hcs
  · rintro ⟨r, rfl⟩
    refine ⟨r.text, Utf8.decode_encode r.text, Numeral.hex?_trim_eq_some.2 ⟨r.field, ?_, r.spelled, r.fits⟩⟩
    exact (takeWhile_append_stop r.inFront r.stops).symm

/-! ## Which of them are sizes by the grammar -/

theorem encode_gaps {cs : List Char} (h : ∀ c ∈ cs, c = ' ' ∨ c = '\t') : ∀ b ∈ Utf8.encode cs, Syntax.isGap b = true := by
  intro b hb
  obtain ⟨c, hc, hb⟩ := List.mem_flatMap.1 hb
  rcases h c hc with rfl | rfl
  · have heq : b = 0x20 := List.mem_singleton.1 hb
    rw [heq]
    rfl
  · have heq : b = 0x09 := List.mem_singleton.1 hb
    rw [heq]
    rfl

theorem exists_of_gaps {gaps : List UInt8} (h : ∀ b ∈ gaps, Syntax.isGap b = true) :
    ∃ cs : List Char, gaps = Utf8.encode cs ∧ ∀ c ∈ cs, c = ' ' ∨ c = '\t' := by
  induction gaps with
  | nil => exact ⟨[], rfl, List.forall_mem_nil _⟩
  | cons b gaps ih =>
    obtain ⟨cs, rfl, hcs⟩ := ih fun b hb => h b (List.mem_cons_of_mem _ hb)
    have hb := h b List.mem_cons_self
    simp only [Syntax.isGap, Bool.or_eq_true, beq_iff_eq] at hb
    rcases hb with rfl | rfl
    · exact ⟨' ' :: cs, rfl, List.forall_mem_cons.2 ⟨.inl rfl, hcs⟩⟩
    · exact ⟨'\t' :: cs, rfl, List.forall_mem_cons.2 ⟨.inr rfl, hcs⟩⟩

theorem isBlank_of_gap {c : Char} (h : c = ' ' ∨ c = '\t') : Blank.isBlank c = true := by
  rcases h with rfl | rfl <;> decide

theorem inSize_of_gap {c : Char} (h : c = ' ' ∨ c = '\t') : inSize c = true := by
  rcases h with rfl | rfl <;> decide

theorem inSize_of_isHexDigit {c : Char} (h : isHexDigit c = true) : inSize c = true := by
  have := Numeral.toNat_of_isHexDigit h
  simp only [inSize, Bool.and_eq_true, bne_iff_ne]
  refine ⟨⟨?_, ?_⟩, ?_⟩ <;> rintro rfl <;> simp at this

variable {tail : List Char}

theorem IsSizeEnd.inSize_eq_false (h : IsSizeEnd tail) : ∀ c ∈ tail.head?, inSize c = false := by
  rcases h with rfl | rfl | h
  · rintro _ ⟨⟩
    decide
  · rintro _ ⟨⟩
    decide
  · rw [h]
    rintro _ ⟨⟩
    decide

theorem IsSizeEnd.bytes {front : List UInt8} (h : IsSizeEnd tail) (hl : IsLine (front ++ Utf8.encode tail)) :
    isEmptyLine (Utf8.encode tail) = true ∨ ∃ ext, IsLine ext ∧ Utf8.encode tail = 0x3B :: ext := by
  rcases h with rfl | rfl | h
  · exact .inl rfl
  · exact .inl rfl
  · obtain ⟨ext, rfl⟩ := List.head?_eq_some_iff.1 h
    have hencode : Utf8.encode (';' :: ext) = 0x3B :: Utf8.encode ext := rfl
    rw [hencode] at hl
    rcases (hl.of_append (List.cons_ne_nil _ _)).cases_cons with hlf | ⟨b, l, -, hext, hcons⟩
    · cases hlf
    · obtain ⟨-, rfl⟩ := List.cons.inj hcons
      exact .inr ⟨_, hext, hencode⟩

theorem isSizeEnd_of_bytes (h : isEmptyLine (Utf8.encode tail) = true ∨ ∃ ext, IsLine ext ∧ Utf8.encode tail = 0x3B :: ext) :
    IsSizeEnd tail := by
  rcases h with hempty | ⟨ext, -, hext⟩
  · simp only [isEmptyLine, Bool.or_eq_true, beq_iff_eq] at hempty
    rcases hempty with h | h
    · exact .inr (.inl (Utf8.encode_inj h))
    · exact .inl (Utf8.encode_inj h)
  · have hext : Utf8.encode tail = Utf8.encode [';'] ++ ext := hext
    obtain ⟨behind, rfl, -⟩ := Utf8.exists_of_encode_eq_append hext
    exact .inr (.inr rfl)

namespace SizeRead

variable {r : SizeRead n}

theorem IsPlain.isSizeLine (h : r.IsPlain) (hl : IsLine r.bytes) : IsSizeLine r.bytes n := by
  have hbytes : r.bytes = Utf8.encode r.field.digits ++ (Utf8.encode r.field.trail ++ Utf8.encode r.tail) := by
    unfold bytes text
    rw [Field.text_of_isBare h.bare, Utf8.encode_append, Utf8.encode_append, List.append_assoc]
  refine ⟨_, _, _, hbytes, r.spelled, encode_gaps h.gaps, ?_⟩
  rw [hbytes, ← List.append_assoc] at hl
  exact h.ends.bytes hl

/-- A line that is a size line by the grammar is read as one, and what is read is the size. -/
theorem of_isSizeLine (h : IsSizeLine r.bytes m) : m = n ∧ r.IsPlain := by
  obtain ⟨digits, gaps, rest, hbytes, hdigits, hgaps, hrest⟩ := h
  obtain ⟨spaces, rfl, hspaces⟩ := exists_of_gaps hgaps
  rw [← List.append_assoc, ← Utf8.encode_append] at hbytes
  obtain ⟨tail, htext, rfl⟩ := Utf8.exists_of_encode_eq_append hbytes
  have hend := isSizeEnd_of_bytes hrest
  have hkind : ∀ c ∈ digits, isHexDigit c = true := fun c hc => hdigits.isHexDigit hc
  have hin : ∀ c ∈ digits ++ spaces, inSize c = true := fun c hc =>
    (List.mem_append.1 hc).elim (fun hc => inSize_of_isHexDigit (hkind c hc)) fun hc => inSize_of_gap (hspaces c hc)
  obtain ⟨hfield, heq⟩ := r.eq_of_append hin hend.inSize_eq_false htext
  -- the field is the only one with this text, and there is a plain one
  let plain : Field isHexDigit :=
    .ofDigits digits spaces hdigits.ne_nil hkind fun c hc => isBlank_of_gap (hspaces c hc)
  have hsame : r.field = plain := Field.text_inj Numeral.isDigitKind_isHexDigit (by
    rw [hfield, Field.text_of_isBare ⟨rfl, rfl⟩]
    rfl)
  have hspelled : SpellsHex plain.digits n := hsame ▸ r.spelled
  refine ⟨hdigits.unique hspelled, ?_, ?_, heq ▸ hend⟩
  · rw [hsame]
    exact ⟨rfl, rfl⟩
  · rw [hsame]
    exact hspaces

end SizeRead

/-! ## Bodies that are read -/

/-- A chunk as it is read: its size line, its data, and whatever two bytes come behind. -/
structure ChunkRead where
  data : List UInt8
  size : SizeRead data.length
  closing : List UInt8
  isChunkLine : IsChunkLine size.bytes
  full : data ≠ []
  fits : data.length + 2 ≤ Numeral.maxUnsigned 64
  two : closing.length = 2

def ChunkRead.bytes (c : ChunkRead) : List UInt8 :=
  c.size.bytes ++ (c.data ++ c.closing)

/-- The size is a size by the grammar, and the two bytes are a CRLF. -/
def ChunkRead.IsPlain (c : ChunkRead) : Prop :=
  c.size.IsPlain ∧ c.closing = [0x0D, 0x0A]

/-- A chunked body as it is read. -/
structure BodyRead where
  chunks : List ChunkRead
  last : SizeRead 0
  isChunkLine : IsChunkLine last.bytes
  trailers : List UInt8
  isBlock : IsBlock IsChunkLine trailers

def BodyRead.bytes (b : BodyRead) : List UInt8 :=
  b.chunks.flatMap ChunkRead.bytes ++ (b.last.bytes ++ b.trailers)

def BodyRead.IsPlain (b : BodyRead) : Prop :=
  (∀ c ∈ b.chunks, c.IsPlain) ∧ b.last.IsPlain

theorem IsChunked.exists_bodyRead (h : IsChunked bs) : ∃ b : BodyRead, b.bytes = bs := by
  induction h with
  | last hline hsize hts =>
    obtain ⟨r, rfl⟩ := chunkSize?_eq_some.1 hsize
    exact ⟨⟨[], r, hline, _, hts⟩, rfl⟩
  | @chunk l data bs n hline hsize hn hfits hdata _ ih =>
    obtain ⟨r, rfl⟩ := chunkSize?_eq_some.1 hsize
    obtain ⟨b, rfl⟩ := ih
    obtain ⟨chunk, closing, rfl, rfl, htwo⟩ : ∃ chunk closing, data = chunk ++ closing ∧ chunk.length = n ∧
        closing.length = 2 := by
      refine ⟨data.take n, data.drop n, (List.take_append_drop n data).symm, ?_, ?_⟩
      · rw [List.length_take]
        omega
      · rw [List.length_drop]
        omega
    let c : ChunkRead := ⟨chunk, r, closing, hline, mt List.length_eq_zero_iff.2 hn, hfits, htwo⟩
    refine ⟨{ b with chunks := c :: b.chunks }, ?_⟩
    simp [BodyRead.bytes, ChunkRead.bytes, c]

theorem BodyRead.isChunked (b : BodyRead) : IsChunked b.bytes := by
  obtain ⟨chunks, last, hline, trailers, htrailers⟩ := b
  show IsChunked (chunks.flatMap ChunkRead.bytes ++ (last.bytes ++ trailers))
  induction chunks with
  | nil =>
    rw [List.flatMap_nil, List.nil_append]
    exact .last hline (chunkSize?_eq_some.2 ⟨last, rfl⟩) htrailers
  | cons c chunks ih =>
    have hlen : (c.data ++ c.closing).length = c.data.length + 2 := by rw [List.length_append, c.two]
    rw [List.flatMap_cons, ChunkRead.bytes, List.append_assoc, List.append_assoc]
    exact .chunk c.isChunkLine (chunkSize?_eq_some.2 ⟨c.size, rfl⟩) (mt List.length_eq_zero_iff.1 c.full) c.fits hlen ih

theorem IsBlock.mono {P Q : List UInt8 → Prop} (h : IsBlock P bs) (hPQ : ∀ l, P l → Q l) : IsBlock Q bs := by
  induction h with
  | last hl hempty => exact .last (hPQ _ hl) hempty
  | cons hl hempty _ ih => exact .cons (hPQ _ hl) hempty ih

theorem IsProper.inv (h : IsProper (l ++ bs)) (hl : IsLine l) :
    IsSizeLine l 0 ∨ ∃ data more, IsSizeLine l data.length ∧ data ≠ [] ∧ IsProper more ∧
      bs = data ++ ([0x0D, 0x0A] ++ more) := by
  generalize hall : l ++ bs = all at h
  cases h with
  | last hsize _ =>
    obtain ⟨rfl, -⟩ := hl.append_inj hsize.isLine hall
    exact .inl hsize
  | chunk hsize hne hmore =>
    obtain ⟨rfl, rfl⟩ := hl.append_inj hsize.isLine hall
    exact .inr ⟨_, _, hsize, hne, hmore, rfl⟩

theorem ChunkRead.isProper_append_iff (c : ChunkRead) : IsProper (c.bytes ++ bs) ↔ c.IsPlain ∧ IsProper bs := by
  obtain ⟨data, r, closing, hline, hfull, hfits, htwo⟩ := c
  show IsProper (r.bytes ++ (data ++ closing) ++ bs) ↔ (r.IsPlain ∧ closing = [0x0D, 0x0A]) ∧ IsProper bs
  rw [List.append_assoc, List.append_assoc]
  constructor
  · intro h
    rcases h.inv hline.1 with hzero | ⟨data', more, hsize, -, hmore, heq⟩
    · have hlen := (SizeRead.of_isSizeLine hzero).1
      exact absurd (List.length_eq_zero_iff.1 hlen.symm) hfull
    · obtain ⟨hlen, hplain⟩ := SizeRead.of_isSizeLine hsize
      obtain ⟨rfl, hbehind⟩ := List.append_inj heq hlen.symm
      obtain ⟨rfl, rfl⟩ := List.append_inj hbehind htwo
      exact ⟨⟨hplain, rfl⟩, hmore⟩
  · rintro ⟨⟨hplain, rfl⟩, h⟩
    exact .chunk (hplain.isSizeLine hline.1) hfull h

/-- **Just the plain bodies are bodies by the grammar.** -/
theorem isProper_bytes_iff (b : BodyRead) : IsProper b.bytes ↔ b.IsPlain := by
  obtain ⟨chunks, last, hline, trailers, htrailers⟩ := b
  show IsProper (chunks.flatMap ChunkRead.bytes ++ (last.bytes ++ trailers)) ↔ (∀ c ∈ chunks, c.IsPlain) ∧ last.IsPlain
  induction chunks with
  | nil =>
    rw [List.flatMap_nil, List.nil_append]
    constructor
    · intro h
      refine ⟨List.forall_mem_nil _, ?_⟩
      rcases h.inv hline.1 with hzero | ⟨data, -, hsize, hne, -⟩
      · exact (SizeRead.of_isSizeLine hzero).2
      · exact absurd (List.length_eq_zero_iff.1 (SizeRead.of_isSizeLine hsize).1) hne
    · rintro ⟨-, hplain⟩
      exact .last (hplain.isSizeLine hline.1) (htrailers.mono fun _ h => h.1)
  | cons c chunks ih =>
    rw [List.flatMap_cons, List.append_assoc, c.isProper_append_iff, ih, List.forall_mem_cons, and_assoc]

/-! ## Sizes that are refused -/

/-- No size can be read from the line, or one to which no two more bytes can be added. -/
def IsBadSize (l : List UInt8) : Prop :=
  ∀ n, ∀ r : SizeRead n, r.bytes = l → Numeral.maxUnsigned 64 < n + 2

/-- **A relay goes no further than a line without a size**, wherever in the body it is. -/
theorem Passage.chunks_of_isBadSize {p : Passage} (idle : Option Nat) (front : List ChunkRead) (hp : p.IsOpen)
    (hl : IsChunkLine l) (hbad : IsBadSize l) (hs : p.source.bytes = front.flatMap ChunkRead.bytes ++ (l ++ more)) :
    ∃ q, p.Passes (front.flatMap ChunkRead.bytes ++ l) q ∧ chunks idle p = q.failRead (.badChunkLine l) := by
  induction front generalizing p with
  | nil =>
    obtain ⟨q, hpass, hline⟩ := line_of_isChunkLine idle hp hl hs
    refine ⟨q, hpass, chunks_of_bad hline fun n hsize => ?_⟩
    obtain ⟨r, hr⟩ := chunkSize?_eq_some.1 hsize
    exact hbad n r hr
  | cons c front ih =>
    have hsize : chunkSize? c.size.bytes = some c.data.length := chunkSize?_eq_some.2 ⟨c.size, rfl⟩
    have hlen : (c.data ++ c.closing).length = c.data.length + 2 := by rw [List.length_append, c.two]
    have hbytes : (c :: front).flatMap ChunkRead.bytes = c.size.bytes ++ (c.data ++ c.closing ++ front.flatMap ChunkRead.bytes) := by
      rw [List.flatMap_cons, ChunkRead.bytes, List.append_assoc]
    rw [hbytes, List.append_assoc, List.append_assoc] at hs
    rw [hbytes, List.append_assoc, List.append_assoc]
    obtain ⟨q, hpass, hline⟩ := line_of_isChunkLine idle hp c.isChunkLine hs
    obtain ⟨r, hchunk, hr⟩ := exactly_of_length idle (hpass.isOpen hp) (hpass.rest hs)
    obtain ⟨t, hrest, ht⟩ := ih ((hpass.trans hchunk).isOpen hp) (hchunk.rest (hpass.rest hs))
    refine ⟨t, hpass.trans (hchunk.trans hrest), ?_⟩
    rw [chunks_of_chunk hline hsize (mt List.length_eq_zero_iff.1 c.full) c.fits, ← hlen, hr]
    exact ht

end Http
end SearchTelemetry
