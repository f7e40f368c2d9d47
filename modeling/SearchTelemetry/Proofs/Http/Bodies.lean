import SearchTelemetry.Http.Body
import SearchTelemetry.Proofs.Http.Lines
/-!
# Http.Bodies — the bodies that are passed on whole, and those that are not

`Framing.Delimits` says what a body is under each framing, without a word on how it is read.  A relay with room in its sink
succeeds on just these: it passes on the body at the front of the bytes, and leaves what stands behind it (`relay_ok`,
`relay_of_delimits`).  Of a body that is not whole it passes on what `Framing.BreaksOff` says (`relay_error`).  In any case that
is a part of the front of the bytes (`relay_reaches`).
-/
namespace SearchTelemetry
namespace Http

/-! ## Bodies -/

/-- A line that is not too long for a chunked body. -/
def IsChunkLine (l : List UInt8) : Prop :=
  IsLine l ∧ l.length ≤ Passage.maxChunkLine

/-- Chunks, the last one empty, and the lines behind it. -/
inductive IsChunked : List UInt8 → Prop where
  | last {l ts : List UInt8} : IsChunkLine l → Passage.chunkSize? l = some 0 → IsBlock IsChunkLine ts →
      IsChunked (l ++ ts)
  | chunk {l data bs : List UInt8} {n : Nat} : IsChunkLine l → Passage.chunkSize? l = some n → n ≠ 0 →
      n + 2 ≤ Numeral.maxUnsigned 64 → data.length = n + 2 → IsChunked bs → IsChunked (l ++ (data ++ bs))

/-- These bytes are a whole body, in front of this rest in a stream that ends so. -/
def Framing.Delimits (ending : Ending) (body rest : List UInt8) : Framing → Prop
  | .empty => body = []
  | .length n => body.length = n
  | .chunked => IsChunked body
  | .untilClose => rest = [] ∧ ending = .closed

/-- What follows a body that is not the rest of its stream has no say in it. -/
theorem Framing.Delimits.of_ne_untilClose {framing : Framing} {ending ending' : Ending} {body rest rest' : List UInt8}
    (hf : framing ≠ .untilClose) (h : framing.Delimits ending body rest) : framing.Delimits ending' body rest' := by
  cases framing with
  | empty => exact h
  | length n => exact h
  | chunked => exact h
  | untilClose => exact absurd rfl hf

/-! ## Bodies that are not whole -/

/-- No line stands at the front of these bytes that is not too long for a chunked body. -/
def LacksChunkLine (bs : List UInt8) : Prop :=
  ∀ l more, IsChunkLine l → bs ≠ l ++ more

/-- What is passed on of lines that have no empty one among them: those that can be read. -/
inductive BrokenLines : List UInt8 → List UInt8 → Prop where
  | nil {bs : List UInt8} : LacksChunkLine bs → BrokenLines bs []
  | cons {l bs part : List UInt8} : IsChunkLine l → isEmptyLine l = false → BrokenLines bs part →
      BrokenLines (l ++ bs) (l ++ part)

/-- What is passed on of chunks that do not come to their end: all up to a line that cannot be read, the line that gives no
size, or what there is of a chunk. -/
inductive BrokenChunks : List UInt8 → List UInt8 → Prop where
  | line {bs : List UInt8} : LacksChunkLine bs → BrokenChunks bs []
  | size {l bs : List UInt8} : IsChunkLine l →
      (∀ n, Passage.chunkSize? l = some n → Numeral.maxUnsigned 64 < n + 2) → BrokenChunks (l ++ bs) l
  | data {l bs : List UInt8} {n : Nat} : IsChunkLine l → Passage.chunkSize? l = some n → n ≠ 0 →
      n + 2 ≤ Numeral.maxUnsigned 64 → bs.length < n + 2 → BrokenChunks (l ++ bs) (l ++ bs)
  | last {l bs part : List UInt8} : IsChunkLine l → Passage.chunkSize? l = some 0 → BrokenLines bs part →
      BrokenChunks (l ++ bs) (l ++ part)
  | chunk {l data bs part : List UInt8} {n : Nat} : IsChunkLine l → Passage.chunkSize? l = some n → n ≠ 0 →
      n + 2 ≤ Numeral.maxUnsigned 64 → data.length = n + 2 → BrokenChunks bs part →
      BrokenChunks (l ++ (data ++ bs)) (l ++ (data ++ part))

/-- What is passed on of a body that is not whole, if these bytes are all there is of a stream that ends so. -/
def Framing.BreaksOff (ending : Ending) (bs part : List UInt8) : Framing → Prop
  | .empty => False
  | .length n => bs.length < n ∧ part = bs
  | .chunked => BrokenChunks bs part
  | .untilClose => ending = .quiet ∧ part = bs

/-! ## Sinks and taps -/

theorem Sink.write_nil (k : Sink) : k.write [] = k := by
  obtain ⟨room, taken⟩ := k
  cases room <;> simp [write]

theorem Sink.write_write (k : Sink) (a b : List UInt8) : (k.write a).write b = k.write (a ++ b) := by
  obtain ⟨room, taken⟩ := k
  cases room with
  | none => simp [write]
  | some n => simp [write, List.take_append, Nat.sub_sub]

theorem Sink.room_write {k : Sink} (h : k.room = none) (bs : List UInt8) : (k.write bs).room = none := by
  simp [write, h]

theorem Sink.written_write {k : Sink} (h : k.room = none) (bs : List UInt8) :
    (k.write bs).written = k.written ++ bs := by
  simp [write, written, h]

theorem Tap.observe_nil (t : Tap) : t.observe [] = t := by
  simp [observe]

theorem Tap.observe_observe (t : Tap) (a b : List UInt8) : (t.observe a).observe b = t.observe (a ++ b) := by
  have hroom : t.limit - (t.preview.length + min (t.limit - t.preview.length) a.length) =
      t.limit - t.preview.length - a.length := by omega
  simp [observe, List.take_append, hroom, Nat.add_assoc]

theorem Tap.foldl_observe (t : Tap) (segments : List (List UInt8)) :
    segments.foldl observe t = t.observe segments.flatten := by
  induction segments generalizing t with
  | nil => exact (t.observe_nil).symm
  | cons s segments ih => rw [List.foldl_cons, ih, observe_observe, List.flatten_cons]

namespace Passage

/-- The passage when all of its source has arrived. -/
def flat (p : Passage) : Passage :=
  { p with source := p.source.flat }

/-- The sink takes any number of bytes. -/
def IsOpen (p : Passage) : Prop :=
  p.sink.room = none

/-- A passage into a sink that takes anything, before the first byte. -/
def start (tap : Nat) (s : Source) : Passage :=
  ⟨s, .ofRoom none, .ofLimit tap⟩

theorem isOpen_start (tap : Nat) (s : Source) : (start tap s).IsOpen :=
  rfl

/-- Whether the sink takes anything has nothing to do with the source. -/
theorem IsOpen.behind {p : Passage} (hp : p.IsOpen) (s : Source) : IsOpen { p with source := s } :=
  hp

/-- From one passage to another these bytes have been passed on. -/
structure Passes (p : Passage) (bs : List UInt8) (q : Passage) : Prop where
  bytes : p.source.bytes = bs ++ q.source.bytes
  ending : q.source.ending = p.source.ending
  sink : q.sink = p.sink.write bs
  tap : q.tap = p.tap.observe bs

variable {p q r : Passage} {a b bs more : List UInt8} {idle : Option Nat}

theorem Passes.refl (p : Passage) : p.Passes [] p :=
  ⟨rfl, rfl, p.sink.write_nil.symm, p.tap.observe_nil.symm⟩

theorem Passes.trans (h : p.Passes a q) (h' : q.Passes b r) : p.Passes (a ++ b) r where
  bytes := by rw [h.bytes, h'.bytes, List.append_assoc]
  ending := h'.ending.trans h.ending
  sink := by rw [h'.sink, h.sink, Sink.write_write]
  tap := by rw [h'.tap, h.tap, Tap.observe_observe]

theorem Passes.isOpen (h : p.Passes bs q) (hp : p.IsOpen) : q.IsOpen := by
  unfold IsOpen
  rw [h.sink]
  exact Sink.room_write hp bs

theorem Passes.written (h : p.Passes bs q) (hp : p.IsOpen) : q.sink.written = p.sink.written ++ bs := by
  rw [h.sink, Sink.written_write hp]

/-- What has been passed on settles what is left. -/
theorem Passes.rest (h : p.Passes bs q) (hs : p.source.bytes = bs ++ more) : q.source.bytes = more :=
  List.append_cancel_left (h.bytes.symm.trans hs)

theorem flat_congr (h : p.flat = q.flat) : p.source.flat = q.source.flat ∧ p.sink = q.sink ∧ p.tap = q.tap :=
  ⟨congrArg (·.source) h, congrArg (·.sink) h, congrArg (·.tap) h⟩

theorem Passes.flat_congr {p' q' : Passage} (h : p.Passes bs q) (h' : p'.Passes bs q') (heq : p.flat = p'.flat) :
    q.flat = q'.flat := by
  obtain ⟨hs, hk, ht⟩ := Passage.flat_congr heq
  obtain ⟨hbytes, hending⟩ := Source.flat_eq_flat_iff.1 hs
  have hrest : q.source.bytes = q'.source.bytes := h.rest (hbytes.trans h'.bytes)
  have hsource : q.source.flat = q'.source.flat :=
    Source.flat_eq_flat_iff.2 ⟨hrest, by rw [h.ending, h'.ending, hending]⟩
  have hsink : q.sink = q'.sink := by rw [h.sink, h'.sink, hk]
  have htap : q.tap = q'.tap := by rw [h.tap, h'.tap, ht]
  unfold flat
  rw [hsource, hsink, htap]

theorem forward_of_isOpen (hp : p.IsOpen) (bs : List UInt8) (rest : Source) :
    p.forward bs rest = .ok ⟨rest, p.sink.write bs, p.tap.observe bs⟩ := by
  have ht : p.sink.takes bs.length = true := by
    unfold Sink.takes
    rw [hp]
    rfl
  rw [forward, if_pos ht]

end Passage

/-! ## How far a relay comes -/

/-- Where a relay ends, whether it is done or has failed. -/
def Relayed.passage : Relayed → Passage
  | .ok p => p
  | .error e => e.passage

/-- The outcome, with all of the source arrived. -/
def Relayed.flat : Relayed → Relayed
  | .ok p => .ok p.flat
  | .error e => .error { e with passage := e.passage.flat }

namespace Passage

/-- A relay that ends so has passed these bytes on, and only the source may be in its way. -/
structure Reaches (p : Passage) (bs : List UInt8) (o : Relayed) : Prop where
  front : bs <+: p.source.bytes
  sink : o.passage.sink = p.sink.write bs
  tap : o.passage.tap = p.tap.observe bs
  fault : ∀ e, o = .error e → ∃ f, e.fault = .read f

variable {p q r : Passage} {a b bs more : List UInt8} {idle : Option Nat} {o : Relayed}

theorem Passes.reaches (h : p.Passes bs q) : p.Reaches bs (.ok q) :=
  ⟨⟨_, h.bytes.symm⟩, h.sink, h.tap, nofun⟩

theorem Passes.failRead (h : p.Passes bs q) (f : ReadFault) : p.Reaches bs (q.failRead f) :=
  ⟨⟨_, h.bytes.symm⟩, h.sink, h.tap, fun e he => ⟨f, by rw [← Except.error.inj he]⟩⟩

theorem Passes.failEnded (h : p.Passes bs q) (idle : Option Nat) (f : ReadFault) : p.Reaches bs (q.failEnded idle f) := by
  unfold Passage.failEnded
  split
  · exact h.failRead f
  · exact h.failRead _

theorem failEnded_ne_ok (p q : Passage) (idle : Option Nat) (f : ReadFault) : p.failEnded idle f ≠ .ok q := by
  unfold failEnded
  intro h
  split at h <;> cases h

theorem Passes.reaches_trans (h : p.Passes a q) (h' : q.Reaches b o) : p.Reaches (a ++ b) o where
  front := by
    rw [h.bytes]
    exact (List.prefix_append_right_inj a).2 h'.front
  sink := by rw [h'.sink, h.sink, Sink.write_write]
  tap := by rw [h'.tap, h.tap, Tap.observe_observe]
  fault := h'.fault

theorem Reaches.written (h : p.Reaches bs o) (hp : p.IsOpen) : o.passage.sink.written = p.sink.written ++ bs := by
  rw [h.sink, Sink.written_write hp]

/-! ## What is passed on at once -/

/-- Some of what is in the buffer is passed on. -/
theorem passes_consume (p : Passage) (n : Nat) :
    let s := p.source.fill
    p.Passes (s.buffer.take n) ⟨s.consume n, p.sink.write (s.buffer.take n), p.tap.observe (s.buffer.take n)⟩ := by
  intro s
  refine ⟨?_, Source.ending_fill p.source, rfl, rfl⟩
  rw [Source.bytes_consume, Source.bytes_fill]

theorem passes_fill (p : Passage) : p.Passes [] { p with source := p.source.fill } :=
  ⟨(Source.bytes_fill p.source).symm, Source.ending_fill p.source, p.sink.write_nil.symm, p.tap.observe_nil.symm⟩

/-! ## A body of known length -/

/-- **A relay of so many bytes** passes them on, or all that there are. -/
theorem exactly_eq (idle : Option Nat) (hp : p.IsOpen) (n : Nat) :
    ∃ q, p.Passes (p.source.bytes.take n) q ∧
      exactly idle n p =
        if n ≤ p.source.bytes.length then .ok q
        else q.failEnded idle (.closedEarly (n - p.source.bytes.length)) := by
  fun_induction exactly idle n p with
  | case1 p => exact ⟨p, .refl p, (if_pos (Nat.zero_le _)).symm⟩
  | case2 n p hn s hs =>
    have hnil : p.source.bytes = [] := Source.bytes_eq_nil_of_fill hs
    rw [hnil, List.take_nil, List.length_nil]
    exact ⟨_, p.passes_fill, (if_neg (Nat.not_le.2 (Nat.pos_of_ne_zero hn))).symm⟩
  | case3 n p hn s hs k r hr ih =>
    obtain rfl := Except.ok.inj ((forward_of_isOpen hp _ _).symm.trans hr)
    have hpass : p.Passes (s.buffer.take k) _ := p.passes_consume k
    have hlen : (s.buffer.take k).length = k := by
      rw [List.length_take]
      exact Nat.min_eq_left (Nat.min_le_right n s.buffer.length)
    have hk : k ≤ n := Nat.min_le_left n s.buffer.length
    obtain ⟨q, hq, heq⟩ := ih (hpass.isOpen hp)
    refine ⟨q, ?_, ?_⟩
    · rw [hpass.bytes, List.take_append, hlen, List.take_of_length_le (hlen.symm ▸ hk)]
      exact hpass.trans hq
    · rw [heq, hpass.bytes, List.length_append, hlen, Nat.sub_sub]
      exact if_congr Nat.sub_le_iff_le_add' rfl rfl
  | case4 n p hn s hs k e he =>
    rw [forward_of_isOpen hp] at he
    cases he

theorem exactly_ok {n : Nat} (hp : p.IsOpen) (h : exactly idle n p = .ok q) :
    ∃ bs, bs.length = n ∧ p.Passes bs q := by
  obtain ⟨r, hpass, heq⟩ := exactly_eq idle hp n
  rw [heq] at h
  split at h
  · rename_i hle
    cases h
    exact ⟨_, List.length_take_of_le hle, hpass⟩
  · exact absurd h (failEnded_ne_ok _ _ _ _)

theorem exactly_of_length (idle : Option Nat) (hp : p.IsOpen) (hs : p.source.bytes = bs ++ more) :
    ∃ q, p.Passes bs q ∧ exactly idle bs.length p = .ok q := by
  obtain ⟨q, hpass, heq⟩ := exactly_eq idle hp bs.length
  rw [hs, List.take_left] at hpass
  rw [hs, List.length_append, if_pos (Nat.le_add_right _ _)] at heq
  exact ⟨q, hpass, heq⟩

theorem exactly_error {e : Failure} {n : Nat} (hp : p.IsOpen) (h : exactly idle n p = .error e) :
    p.source.bytes.length < n ∧ p.Reaches p.source.bytes (.error e) := by
  obtain ⟨q, hpass, heq⟩ := exactly_eq idle hp n
  rw [h] at heq
  split at heq
  · cases heq
  · rename_i hshort
    rw [List.take_of_length_le (Nat.le_of_not_le hshort)] at hpass
    exact ⟨Nat.lt_of_not_le hshort, heq ▸ hpass.failEnded idle _⟩

theorem exactly_reaches (idle : Option Nat) (hp : p.IsOpen) (n : Nat) :
    p.Reaches (p.source.bytes.take n) (exactly idle n p) := by
  obtain ⟨q, hpass, heq⟩ := exactly_eq idle hp n
  rw [heq]
  split
  · exact hpass.reaches
  · exact hpass.failEnded idle _

/-! ## A body to the end of the stream -/

/-- **A relay to the end of the stream** passes on all that there is. -/
theorem toEnd_eq (idle : Option Nat) (hp : p.IsOpen) :
    ∃ q, p.Passes p.source.bytes q ∧
      toEnd idle p = match p.source.ending with | .closed => .ok q | .quiet => q.failRead (.quiet idle) := by
  fun_induction toEnd idle p with
  | case1 p s hs hend =>
    have hnil : p.source.bytes = [] := Source.bytes_eq_nil_of_fill hs
    have hclosed : p.source.ending = .closed := (Source.ending_fill p.source).symm.trans hend
    rw [hnil, hclosed]
    exact ⟨_, p.passes_fill, rfl⟩
  | case2 p s hs hend =>
    have hnil : p.source.bytes = [] := Source.bytes_eq_nil_of_fill hs
    have hquiet : p.source.ending = .quiet := (Source.ending_fill p.source).symm.trans hend
    rw [hnil, hquiet]
    exact ⟨_, p.passes_fill, rfl⟩
  | case3 p s hs r hr ih =>
    obtain rfl := Except.ok.inj ((forward_of_isOpen hp _ _).symm.trans hr)
    have hpass : p.Passes (s.buffer.take s.buffer.length) _ := p.passes_consume s.buffer.length
    rw [List.take_length] at hpass
    obtain ⟨q, hq, heq⟩ := ih (hpass.isOpen hp)
    have htrans := hpass.trans hq
    rw [← hpass.bytes] at htrans
    rw [hpass.ending] at heq
    exact ⟨q, htrans, heq⟩
  | case4 p s hs e he =>
    rw [forward_of_isOpen hp] at he
    cases he

/-! ## Lines of a chunked body -/

theorem reaches_nil (p : Passage) (s : Source) (f : ReadFault) :
    p.Reaches [] (.error ⟨.read f, { p with source := s }⟩) where
  front := List.nil_prefix
  sink := p.sink.write_nil.symm
  tap := p.tap.observe_nil.symm
  fault e he := ⟨f, by rw [← Except.error.inj he]⟩

/-- A line is passed on whole, or nothing of it. -/
theorem line_cases (hp : p.IsOpen) :
    (∃ l q, IsChunkLine l ∧ p.Passes l q ∧ line idle p = .ok (l, q)) ∨
      ∃ e, p.Reaches [] (.error e) ∧ line idle p = .error e := by
  obtain ⟨hending, hstop⟩ := Source.readLine_spec maxChunkLine p.source
  let l := p.source.readLine maxChunkLine
  have hpass : p.Passes l.bytes ⟨l.rest, p.sink.write l.bytes, p.tap.observe l.bytes⟩ :=
    ⟨(Source.bytes_readLine maxChunkLine p.source).symm, hending, rfl, rfl⟩
  unfold line
  dsimp only
  cases h : (p.source.readLine maxChunkLine).stop with
  | lineFeed =>
    rw [h] at hstop
    refine .inl ⟨_, _, hstop, hpass, ?_⟩
    dsimp only
    rw [forward_of_isOpen (hp.behind l.rest)]
  | full => exact .inr ⟨_, p.reaches_nil l.rest .lineTruncated, rfl⟩
  | exhausted => exact .inr ⟨_, p.reaches_nil l.rest _, rfl⟩

theorem line_ok {l : List UInt8} (hp : p.IsOpen) (h : line idle p = .ok (l, q)) : IsChunkLine l ∧ p.Passes l q := by
  rcases line_cases hp with ⟨l', q', hline, hpass, heq⟩ | ⟨e, -, heq⟩
  · cases heq.symm.trans h
    exact ⟨hline, hpass⟩
  · cases heq.symm.trans h

theorem reaches_of_line_error {e : Failure} (hp : p.IsOpen) (h : line idle p = .error e) : p.Reaches [] (.error e) := by
  rcases line_cases hp with ⟨l, q, -, -, heq⟩ | ⟨e', hreach, heq⟩
  · cases heq.symm.trans h
  · cases heq.symm.trans h
    exact hreach

theorem line_of_isChunkLine (idle : Option Nat) {l : List UInt8} (hp : p.IsOpen) (hl : IsChunkLine l)
    (hs : p.source.bytes = l ++ more) : ∃ q, p.Passes l q ∧ line idle p = .ok (l, q) := by
  obtain ⟨hline, hrest, hstop⟩ := Source.readLine_of_isLine hl.1 hl.2 hs
  refine ⟨⟨(p.source.readLine maxChunkLine).rest, p.sink.write l, p.tap.observe l⟩,
    ⟨?_, Source.ending_readLine maxChunkLine p.source, rfl, rfl⟩, ?_⟩
  · rw [hs, hrest]
  · unfold line
    dsimp only
    rw [hstop, hline]
    dsimp only
    rw [forward_of_isOpen (hp.behind _)]

theorem lacksChunkLine_of_line_error {e : Failure} (hp : p.IsOpen) (h : line idle p = .error e) :
    LacksChunkLine p.source.bytes := by
  intro l more hl hs
  obtain ⟨q, -, hok⟩ := line_of_isChunkLine idle hp hl hs
  cases h.symm.trans hok

/-! ## The lines behind the chunks -/

theorem trailers_of_line {l : List UInt8} (h : line idle p = .ok (l, q)) :
    trailers idle p = if isEmptyLine l then .ok q else trailers idle q := by
  rw [trailers]
  split
  · rename_i e he
    cases h.symm.trans he
  · rename_i l' q' he
    cases h.symm.trans he
    rfl

theorem trailers_of_error {e : Failure} (h : line idle p = .error e) : trailers idle p = .error e := by
  rw [trailers]
  split
  · rename_i e' he
    cases h.symm.trans he
    rfl
  · rename_i l q he
    cases h.symm.trans he

theorem trailers_ok (hp : p.IsOpen) (h : trailers idle p = .ok q) : ∃ ts, IsBlock IsChunkLine ts ∧ p.Passes ts q := by
  fun_induction trailers idle p with
  | case1 p e he => cases h
  | case2 p l r hl hempty =>
    obtain ⟨hline, hpass⟩ := line_ok hp hl
    cases h
    exact ⟨l, .last hline hempty, hpass⟩
  | case3 p l r hl hempty ih =>
    obtain ⟨hline, hpass⟩ := line_ok hp hl
    obtain ⟨ts, hts, hrest⟩ := ih (hpass.isOpen hp) h
    exact ⟨l ++ ts, .cons hline (Bool.eq_false_iff.2 hempty) hts, hpass.trans hrest⟩

theorem trailers_of_isBlock {ts : List UInt8} (hts : IsBlock IsChunkLine ts) (hp : p.IsOpen)
    (hs : p.source.bytes = ts ++ more) : ∃ q, p.Passes ts q ∧ trailers idle p = .ok q := by
  induction hts generalizing p with
  | last hline hempty =>
    obtain ⟨q, hpass, hl⟩ := line_of_isChunkLine idle hp hline hs
    exact ⟨q, hpass, by rw [trailers_of_line hl, if_pos hempty]⟩
  | cons hline hempty _ ih =>
    rw [List.append_assoc] at hs
    obtain ⟨q, hpass, hl⟩ := line_of_isChunkLine idle hp hline hs
    obtain ⟨r, hrest, heq⟩ := ih (hpass.isOpen hp) (hpass.rest hs)
    exact ⟨r, hpass.trans hrest, by rw [trailers_of_line hl, if_neg (Bool.eq_false_iff.1 hempty), heq]⟩

theorem trailers_error {e : Failure} (hp : p.IsOpen) (h : trailers idle p = .error e) :
    ∃ part, BrokenLines p.source.bytes part ∧ p.Reaches part (.error e) := by
  fun_induction trailers idle p with
  | case1 p e' he =>
    cases h
    exact ⟨[], .nil (lacksChunkLine_of_line_error hp he), reaches_of_line_error hp he⟩
  | case2 p l r hl hempty => cases h
  | case3 p l r hl hempty ih =>
    obtain ⟨hline, hpass⟩ := line_ok hp hl
    obtain ⟨part, hpart, hreach⟩ := ih (hpass.isOpen hp) h
    exact ⟨l ++ part, hpass.bytes ▸ .cons hline (Bool.eq_false_iff.2 hempty) hpart, hpass.reaches_trans hreach⟩

theorem trailers_reaches (idle : Option Nat) (hp : p.IsOpen) : ∃ bs, p.Reaches bs (trailers idle p) := by
  cases h : trailers idle p with
  | ok q =>
    obtain ⟨ts, -, hpass⟩ := trailers_ok hp h
    exact ⟨ts, hpass.reaches⟩
  | error e =>
    obtain ⟨part, -, hreach⟩ := trailers_error hp h
    exact ⟨part, hreach⟩

/-! ## A chunked body -/

theorem chunks_of_error {e : Failure} (h : line idle p = .error e) : chunks idle p = .error e := by
  rw [chunks]
  split
  · rename_i e' he
    cases h.symm.trans he
    rfl
  · rename_i l q he
    cases h.symm.trans he

theorem chunks_of_line {l : List UInt8} (h : line idle p = .ok (l, q)) :
    chunks idle p =
      match chunkSize? l with
      | none => q.failRead (.badChunkLine l)
      | some 0 => trailers idle q
      | some n =>
        if Numeral.maxUnsigned 64 < n + 2 then q.failRead (.badChunkLine l)
        else (exactly idle (n + 2) q).bind (chunks idle) := by
  rw [chunks]
  split
  · rename_i e he
    cases h.symm.trans he
  · rename_i l' q' he
    cases h.symm.trans he
    cases chunkSize? l with
    | none => rfl
    | some n =>
      cases n with
      | zero => rfl
      | succ n =>
        refine if_congr Iff.rfl rfl ?_
        split <;> rename_i heq <;> rw [heq] <;> rfl

theorem chunks_of_last {l : List UInt8} (h : line idle p = .ok (l, q)) (hsize : chunkSize? l = some 0) :
    chunks idle p = trailers idle q := by
  rw [chunks_of_line h, hsize]
  rfl

theorem chunks_of_chunk {l : List UInt8} {n : Nat} (h : line idle p = .ok (l, q)) (hsize : chunkSize? l = some n)
    (hn : n ≠ 0) (hsmall : n + 2 ≤ Numeral.maxUnsigned 64) :
    chunks idle p = (exactly idle (n + 2) q).bind (chunks idle) := by
  obtain ⟨n, rfl⟩ := Nat.exists_eq_succ_of_ne_zero hn
  rw [chunks_of_line h, hsize]
  exact if_neg (Nat.not_lt.2 hsmall)

theorem chunks_of_bad {l : List UInt8} (h : line idle p = .ok (l, q))
    (hbad : ∀ n, chunkSize? l = some n → Numeral.maxUnsigned 64 < n + 2) :
    chunks idle p = q.failRead (.badChunkLine l) := by
  rw [chunks_of_line h]
  cases hsize : chunkSize? l with
  | none => rfl
  | some n =>
    cases n with
    | zero => exact absurd (hbad 0 hsize) (by decide)
    | succ n => exact if_pos (hbad (n + 1) hsize)

theorem chunks_ok (hp : p.IsOpen) (h : chunks idle p = .ok q) : ∃ bs, IsChunked bs ∧ p.Passes bs q := by
  fun_induction chunks idle p with
  | case1 p e he => cases h
  | case2 p l r hl hsize => cases h
  | case3 p l r hl hsize =>
    obtain ⟨hline, hpass⟩ := line_ok hp hl
    obtain ⟨ts, hts, hrest⟩ := trailers_ok (hpass.isOpen hp) h
    exact ⟨l ++ ts, .last hline hsize hts, hpass.trans hrest⟩
  | case4 p l r hl n hn hsize hlarge => cases h
  | case5 p l r hl n hn hsize hlarge e he => cases h
  | case6 p l r hl n hn hsize hlarge t ht ih =>
    obtain ⟨hline, hpass⟩ := line_ok hp hl
    obtain ⟨data, hdata, hchunk⟩ := exactly_ok (hpass.isOpen hp) ht
    have hto := hpass.trans hchunk
    obtain ⟨bs, hbs, hrest⟩ := ih (hto.isOpen hp) h
    refine ⟨l ++ (data ++ bs), .chunk hline hsize hn (Nat.le_of_not_lt hlarge) hdata hbs, ?_⟩
    rw [← List.append_assoc]
    exact hto.trans hrest

theorem chunks_of_isChunked (hbs : IsChunked bs) (hp : p.IsOpen) (hs : p.source.bytes = bs ++ more) :
    ∃ q, p.Passes bs q ∧ chunks idle p = .ok q := by
  induction hbs generalizing p with
  | last hline hsize hts =>
    rw [List.append_assoc] at hs
    obtain ⟨q, hpass, hl⟩ := line_of_isChunkLine idle hp hline hs
    obtain ⟨r, hrest, heq⟩ := trailers_of_isBlock hts (hpass.isOpen hp) (hpass.rest hs)
    exact ⟨r, hpass.trans hrest, by rw [chunks_of_last hl hsize, heq]⟩
  | @chunk l data bs n hline hsize hn hsmall hdata _ ih =>
    rw [List.append_assoc, List.append_assoc] at hs
    obtain ⟨q, hpass, hl⟩ := line_of_isChunkLine idle hp hline hs
    obtain ⟨r, hchunk, hr⟩ := exactly_of_length idle (hpass.isOpen hp) (hpass.rest hs)
    have hto := hpass.trans hchunk
    obtain ⟨t, hrest, heq⟩ := ih (hto.isOpen hp) (hchunk.rest (hpass.rest hs))
    refine ⟨t, ?_, ?_⟩
    · rw [← List.append_assoc]
      exact hto.trans hrest
    · rw [chunks_of_chunk hl hsize hn hsmall, ← hdata, hr]
      exact heq

theorem chunks_error {e : Failure} (hp : p.IsOpen) (h : chunks idle p = .error e) :
    ∃ part, BrokenChunks p.source.bytes part ∧ p.Reaches part (.error e) := by
  fun_induction chunks idle p with
  | case1 p e' he =>
    cases h
    exact ⟨[], .line (lacksChunkLine_of_line_error hp he), reaches_of_line_error hp he⟩
  | case2 p l r hl hsize =>
    obtain ⟨hline, hpass⟩ := line_ok hp hl
    have hbad : ∀ n, chunkSize? l = some n → Numeral.maxUnsigned 64 < n + 2 := fun n hn => by
      cases hsize.symm.trans hn
    exact ⟨l, hpass.bytes ▸ .size hline hbad, h ▸ hpass.failRead _⟩
  | case3 p l r hl hsize =>
    obtain ⟨hline, hpass⟩ := line_ok hp hl
    obtain ⟨part, hpart, hreach⟩ := trailers_error (hpass.isOpen hp) h
    exact ⟨l ++ part, hpass.bytes ▸ .last hline hsize hpart, hpass.reaches_trans hreach⟩
  | case4 p l r hl n hn hsize hlarge =>
    obtain ⟨hline, hpass⟩ := line_ok hp hl
    have hbad : ∀ m, chunkSize? l = some m → Numeral.maxUnsigned 64 < m + 2 := fun m hm => by
      rwa [← Option.some.inj (hsize.symm.trans hm)]
    exact ⟨l, hpass.bytes ▸ .size hline hbad, h ▸ hpass.failRead _⟩
  | case5 p l r hl n hn hsize hlarge e' he =>
    cases h
    obtain ⟨hline, hpass⟩ := line_ok hp hl
    obtain ⟨hshort, hreach⟩ := exactly_error (hpass.isOpen hp) he
    refine ⟨l ++ r.source.bytes, ?_, hpass.reaches_trans hreach⟩
    rw [hpass.bytes]
    exact .data hline hsize hn (Nat.le_of_not_lt hlarge) hshort
  | case6 p l r hl n hn hsize hlarge t ht ih =>
    obtain ⟨hline, hpass⟩ := line_ok hp hl
    obtain ⟨data, hdata, hchunk⟩ := exactly_ok (hpass.isOpen hp) ht
    have hto := hpass.trans hchunk
    obtain ⟨part, hpart, hreach⟩ := ih (hto.isOpen hp) h
    refine ⟨l ++ (data ++ part), ?_, ?_⟩
    · rw [hpass.bytes, hchunk.bytes]
      exact .chunk hline hsize hn (Nat.le_of_not_lt hlarge) hdata hpart
    · rw [← List.append_assoc]
      exact hto.reaches_trans hreach

theorem chunks_reaches (idle : Option Nat) (hp : p.IsOpen) : ∃ bs, p.Reaches bs (chunks idle p) := by
  cases h : chunks idle p with
  | ok q =>
    obtain ⟨bs, -, hpass⟩ := chunks_ok hp h
    exact ⟨bs, hpass.reaches⟩
  | error e =>
    obtain ⟨part, -, hreach⟩ := chunks_error hp h
    exact ⟨part, hreach⟩

/-! ## Any body -/

/-- **A relay that succeeds has passed on a body**, the one at the front of the bytes. -/
theorem relay_ok {framing : Framing} (hp : p.IsOpen) (h : relay idle p framing = .ok q) :
    ∃ body, framing.Delimits p.source.ending body q.source.bytes ∧ p.Passes body q := by
  cases framing with
  | empty =>
    cases h
    exact ⟨[], rfl, .refl p⟩
  | length n =>
    obtain ⟨bs, hbs, hpass⟩ := exactly_ok hp h
    exact ⟨bs, hbs, hpass⟩
  | chunked =>
    obtain ⟨bs, hbs, hpass⟩ := chunks_ok hp h
    exact ⟨bs, hbs, hpass⟩
  | untilClose =>
    obtain ⟨r, hpass, heq⟩ := toEnd_eq idle hp
    have htoEnd : toEnd idle p = .ok q := h
    cases hending : p.source.ending with
    | closed =>
      rw [htoEnd, hending] at heq
      cases heq
      exact ⟨p.source.bytes, ⟨hpass.rest (List.append_nil _).symm, rfl⟩, hpass⟩
    | quiet =>
      rw [htoEnd, hending] at heq
      cases heq

/-- **A body at the front of the bytes is passed on whole.** -/
theorem relay_of_delimits (idle : Option Nat) {framing : Framing} {body : List UInt8} (hp : p.IsOpen)
    (hs : p.source.bytes = body ++ more) (hbody : framing.Delimits p.source.ending body more) :
    ∃ q, p.Passes body q ∧ relay idle p framing = .ok q := by
  cases framing with
  | empty =>
    obtain rfl : body = [] := hbody
    exact ⟨p, .refl p, rfl⟩
  | length n =>
    obtain rfl : body.length = n := hbody
    exact exactly_of_length idle hp hs
  | chunked => exact chunks_of_isChunked hbody hp hs
  | untilClose =>
    obtain ⟨rfl, hending⟩ := hbody
    obtain ⟨q, hpass, heq⟩ := toEnd_eq idle hp
    rw [hs, List.append_nil] at hpass
    rw [hending] at heq
    exact ⟨q, hpass, heq⟩

/-- **A relay that fails has passed on what there is of a body**, and the sink is not to blame. -/
theorem relay_error {framing : Framing} {e : Failure} (hp : p.IsOpen) (h : relay idle p framing = .error e) :
    ∃ part, framing.BreaksOff p.source.ending p.source.bytes part ∧ p.Reaches part (.error e) := by
  cases framing with
  | empty => cases h
  | length n =>
    obtain ⟨hshort, hreach⟩ := exactly_error hp h
    exact ⟨_, ⟨hshort, rfl⟩, hreach⟩
  | chunked => exact chunks_error hp h
  | untilClose =>
    obtain ⟨q, hpass, heq⟩ := toEnd_eq idle hp
    have htoEnd : toEnd idle p = .error e := h
    rw [htoEnd] at heq
    cases hending : p.source.ending with
    | closed =>
      rw [hending] at heq
      cases heq
    | quiet =>
      rw [hending] at heq
      exact ⟨_, ⟨rfl, rfl⟩, heq ▸ hpass.failRead _⟩

/-- **Whatever becomes of a relay**, it has passed on a part of the front of the bytes. -/
theorem relay_reaches (idle : Option Nat) (hp : p.IsOpen) (framing : Framing) : ∃ bs, p.Reaches bs (relay idle p framing) := by
  cases h : relay idle p framing with
  | ok q =>
    obtain ⟨body, -, hpass⟩ := relay_ok hp h
    exact ⟨body, hpass.reaches⟩
  | error e =>
    obtain ⟨part, -, hreach⟩ := relay_error hp h
    exact ⟨part, hreach⟩

/-- A body that runs to the end of the stream takes all that there is. -/
theorem written_relay_untilClose (idle : Option Nat) (hp : p.IsOpen) :
    (relay idle p .untilClose).passage.sink.written = p.sink.written ++ p.source.bytes := by
  obtain ⟨q, hpass, heq⟩ := toEnd_eq idle hp
  show (toEnd idle p).passage.sink.written = p.sink.written ++ p.source.bytes
  rw [heq]
  split
  · exact hpass.written hp
  · exact hpass.written hp

end Passage
end Http
end SearchTelemetry
