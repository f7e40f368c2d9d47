import SearchTelemetry.Http.Framing
import SearchTelemetry.Http.Source
import SearchTelemetry.Text.Utf8
/-!
# Http.Body — passing a body on, byte for byte

A body goes from a source to a sink as it comes.  A tap counts the bytes and keeps the first of them.  Only the delimiters
of a chunked body are looked at, and they are passed on as they came, too.  A relay that fails says on which side, and
leaves behind what was passed on so far.
-/
namespace SearchTelemetry
namespace Http

/-! ## Sink and tap -/

/-- A writer that takes a limited number of bytes. -/
structure Sink where
  /-- How many bytes it still takes; `none` for any number. -/
  room : Option Nat
  /-- What it has taken, in reverse. -/
  taken : List UInt8
deriving DecidableEq, Repr

namespace Sink

/-- A writer that has taken nothing yet. -/
def ofRoom (room : Option Nat) : Sink :=
  ⟨room, []⟩

/-- What has been written, in order. -/
def written (k : Sink) : List UInt8 :=
  k.taken.reverse

/-- There is room for so many bytes. -/
def takes (k : Sink) (n : Nat) : Bool :=
  k.room.all (n ≤ ·)

/-- The writer after bytes, of which it takes as many as it has room for. -/
def write (k : Sink) (bs : List UInt8) : Sink :=
  match k.room with
  | none => ⟨none, (bs.reverse ++ k.taken)⟩
  | some n => ⟨some (n - bs.length), ((bs.take n).reverse ++ k.taken)⟩

end Sink

/-- A count of bytes and the first of them. -/
structure Tap where
  /-- How many bytes are kept. -/
  limit : Nat
  preview : List UInt8
  total : Nat
deriving DecidableEq, Repr

namespace Tap

/-- A tap that has seen nothing yet. -/
def ofLimit (limit : Nat) : Tap :=
  ⟨limit, [], 0⟩

/-- The tap after more bytes. -/
def observe (t : Tap) (bs : List UInt8) : Tap :=
  { t with preview := t.preview ++ bs.take (t.limit - t.preview.length), total := t.total + bs.length }

end Tap

/-! ## Faults -/

/-- Why a source gives no more of a body. -/
inductive ReadFault where
  /-- It is closed, and so many bytes are missing. -/
  | closedEarly (outstanding : Nat)
  /-- It is closed inside a line of a chunked body, or the line is too long. -/
  | lineTruncated
  /-- This line gives no chunk size. -/
  | badChunkLine (line : List UInt8)
  /-- It has been quiet for so many milliseconds.  A reader without such a limit waits for ever. -/
  | quiet (idleMillis : Option Nat)
deriving DecidableEq, Repr

/-- Why a source gives no more, in words. -/
def ReadFault.message : ReadFault → String
  | closedEarly n => "peer closed with " ++ Numeral.text n ++ " body bytes outstanding"
  | lineTruncated => "chunk line truncated"
  | badChunkLine line => "bad chunk size line " ++ Quoted.quote (Utf8.lossy line)
  | quiet (some n) => "no body bytes for " ++ Numeral.text n ++ "ms"
  | quiet none => "no body bytes"

/-- Why a body is not passed on whole. -/
inductive RelayFault where
  /-- The source gives no more. -/
  | read (fault : ReadFault)
  /-- The sink takes no more. -/
  | write
deriving DecidableEq, Repr

/-- A body on its way: what is left of the source, what the sink has, what the tap has seen. -/
structure Passage where
  source : Source
  sink : Sink
  tap : Tap

/-- A relay that failed, and how far it came. -/
structure Failure where
  fault : RelayFault
  passage : Passage

/-- A relay that is done, or one that failed. -/
abbrev Relayed := Except Failure Passage

namespace Passage

/-- Stops because of the source. -/
def failRead (p : Passage) (fault : ReadFault) : Relayed :=
  .error ⟨.read fault, p⟩

/-- Stops because the source has no more: either it is closed, with this fault, or it is quiet. -/
def failEnded (p : Passage) (idle : Option Nat) (closed : ReadFault) : Relayed :=
  match p.source.ending with
  | .closed => p.failRead closed
  | .quiet => p.failRead (.quiet idle)

/-- Passes on bytes at the front of the source, which is `rest` once they have gone through.  The tap sees only what went
through whole. -/
def forward (p : Passage) (bs : List UInt8) (rest : Source) : Relayed :=
  if p.sink.takes bs.length then .ok ⟨rest, p.sink.write bs, p.tap.observe bs⟩
  else .error ⟨.write, { p with sink := p.sink.write bs }⟩

theorem source_of_forward {p q : Passage} {bs : List UInt8} {rest : Source} (h : p.forward bs rest = .ok q) :
    q.source = rest := by
  unfold forward at h
  split at h
  · cases h; rfl
  · cases h

/-! ## A body of known length -/

/-- Passes on `n` bytes. -/
def exactly (idle : Option Nat) (n : Nat) (p : Passage) : Relayed :=
  if _ : n = 0 then .ok p
  else
    let s := p.source.fill
    if _ : s.buffer = [] then failEnded { p with source := s } idle (.closedEarly n)
    else
      let k := min n s.buffer.length
      match p.forward (s.buffer.take k) (s.consume k) with
      | .ok q => exactly idle (n - k) q
      | .error e => .error e
termination_by n
decreasing_by
  have := List.length_pos_iff.2 ‹¬s.buffer = []›
  show n - min n s.buffer.length < n
  omega

theorem size_exactly {idle : Option Nat} {n : Nat} {p q : Passage} (h : exactly idle n p = .ok q) :
    q.source.size ≤ p.source.size := by
  fun_induction exactly idle n p generalizing q
  case case1 => cases h; exact Nat.le_refl _
  case case2 => unfold failEnded at h; split at h <;> cases h
  case case3 n p _ s _ k r hr ih =>
    have hs : s.size = p.source.size := Source.size_fill p.source
    have := Source.size_consume k s
    have := ih h
    rw [source_of_forward hr] at this
    omega
  case case4 => cases h

/-! ## A body to the end of the stream -/

/-- Passes on everything that comes. -/
def toEnd (idle : Option Nat) (p : Passage) : Relayed :=
  let s := p.source.fill
  if _ : s.buffer = [] then
    match s.ending with
    | .closed => .ok { p with source := s }
    | .quiet => failRead { p with source := s } (.quiet idle)
  else
    match _ : p.forward s.buffer (s.consume s.buffer.length) with
    | .ok q => toEnd idle q
    | .error e => .error e
termination_by p.source.size
decreasing_by
  have h := Source.size_consume s.buffer.length s
  have hs : s.size = p.source.size := Source.size_fill p.source
  have := List.length_pos_iff.2 ‹¬s.buffer = []›
  rw [source_of_forward ‹_›]
  omega

theorem size_toEnd {idle : Option Nat} {p q : Passage} (h : toEnd idle p = .ok q) :
    q.source.size ≤ p.source.size := by
  fun_induction toEnd idle p
  case case1 p _ _ _ => cases h; exact Nat.le_of_eq (Source.size_fill p.source)
  case case2 => cases h
  case case3 p s _ r hr ih =>
    have hs : s.size = p.source.size := Source.size_fill p.source
    have := Source.size_consume s.buffer.length s
    have := ih h
    rw [source_of_forward hr] at this
    omega
  case case4 => cases h

/-! ## A chunked body -/

/-- A line of a chunked body has at most so many bytes. -/
def maxChunkLine : Nat := 8192

/-- Passes on one line of a chunked body, and gives the line.  It is taken from the source before it is passed on. -/
def line (idle : Option Nat) (p : Passage) : Except Failure (List UInt8 × Passage) :=
  let l := p.source.readLine maxChunkLine
  let behind := { p with source := l.rest }
  match l.stop with
  | .lineFeed =>
    match behind.forward l.bytes l.rest with
    | .ok q => .ok (l.bytes, q)
    | .error e => .error e
  | .full => .error ⟨.read .lineTruncated, behind⟩
  | .exhausted => .error ⟨.read (if p.source.ending = .quiet then .quiet idle else .lineTruncated), behind⟩

theorem size_line {idle : Option Nat} {p q : Passage} {l : List UInt8} (h : line idle p = .ok (l, q)) :
    q.source.size < p.source.size := by
  unfold line at h
  dsimp only at h
  split at h
  · rename_i hl
    split at h
    · rename_i r hr
      cases h
      have := List.length_pos_iff.2 (Source.ne_nil_readLine hl)
      have := Source.size_readLine maxChunkLine p.source
      rw [source_of_forward hr]
      omega
    · cases h
  · cases h
  · cases h

/-- The size that stands in front of a chunk: hexadecimal digits up to a semicolon or the end of the line. -/
def chunkSize? (line : List UInt8) : Option Nat :=
  (Utf8.decode line).bind fun cs =>
    Numeral.hex? 64 (Blank.trim (cs.takeWhile fun c => c != ';' && c != '\r' && c != '\n'))

/-- Passes on lines up to and with the empty one. -/
def trailers (idle : Option Nat) (p : Passage) : Relayed :=
  match _ : line idle p with
  | .error e => .error e
  | .ok (l, q) => if isEmptyLine l then .ok q else trailers idle q
termination_by p.source.size
decreasing_by exact size_line ‹_›

theorem size_trailers {idle : Option Nat} {p q : Passage} (h : trailers idle p = .ok q) :
    q.source.size ≤ p.source.size := by
  fun_induction trailers idle p
  case case1 => cases h
  case case2 hl _ => cases h; exact Nat.le_of_lt (size_line hl)
  case case3 hl _ ih => exact Nat.le_trans (ih h) (Nat.le_of_lt (size_line hl))

/-- Passes on chunks up to and with the last one, which is empty, and the lines behind it.  What follows a chunk is taken
with it, as two more bytes. -/
def chunks (idle : Option Nat) (p : Passage) : Relayed :=
  match _ : line idle p with
  | .error e => .error e
  | .ok (l, q) =>
    match chunkSize? l with
    | none => q.failRead (.badChunkLine l)
    | some 0 => trailers idle q
    | some n =>
      if Numeral.maxUnsigned 64 < n + 2 then q.failRead (.badChunkLine l)
      else
        match _ : exactly idle (n + 2) q with
        | .error e => .error e
        | .ok r => chunks idle r
termination_by p.source.size
decreasing_by exact Nat.lt_of_le_of_lt (size_exactly ‹_›) (size_line ‹_›)

theorem size_chunks {idle : Option Nat} {p q : Passage} (h : chunks idle p = .ok q) :
    q.source.size ≤ p.source.size := by
  fun_induction chunks idle p
  case case1 => cases h
  case case2 => cases h
  case case3 hl _ => exact Nat.le_trans (size_trailers h) (Nat.le_of_lt (size_line hl))
  case case4 => cases h
  case case5 => cases h
  case case6 hl _ _ _ _ _ hr ih =>
    exact Nat.le_trans (ih h) (Nat.le_trans (size_exactly hr) (Nat.le_of_lt (size_line hl)))

/-! ## Any body -/

/-- Passes on a body. -/
def relay (idle : Option Nat) (p : Passage) : Framing → Relayed
  | .empty => .ok p
  | .length n => exactly idle n p
  | .chunked => chunks idle p
  | .untilClose => toEnd idle p

/-- A body never gives bytes back to the source. -/
theorem size_relay {idle : Option Nat} {framing : Framing} {p q : Passage} (h : relay idle p framing = .ok q) :
    q.source.size ≤ p.source.size := by
  cases framing with
  | empty => cases h; exact Nat.le_refl _
  | length n => exact size_exactly h
  | chunked => exact size_chunks h
  | untilClose => exact size_toEnd h

end Passage
end Http
end SearchTelemetry
