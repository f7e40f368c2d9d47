/-!
# Http.Source — bytes as they arrive

A stream is read through a buffer, which is filled with one segment at a time and only when it is empty.  After the last
segment the stream is closed or goes quiet.  Where the segments are cut has no effect on what readers find: `bytes` is the
view that they are judged by, and a line that is read together with what is left is what was there (`bytes_readLine`).
-/
namespace SearchTelemetry
namespace Http

/-- What comes after the last byte of a stream. -/
inductive Ending where
  /-- The sender closes its side. -/
  | closed
  /-- The stream stays open and nothing more comes. -/
  | quiet
deriving DecidableEq, Repr

/-- A stream being read. -/
structure Source where
  /-- What has arrived and is not yet consumed. -/
  buffer : List UInt8
  /-- What arrives later, a segment for each filling of the buffer. -/
  coming : List (List UInt8)
  ending : Ending
deriving DecidableEq, Repr

/-- A line with nothing in it but its end. -/
def isEmptyLine (line : List UInt8) : Bool :=
  line == [0x0D, 0x0A] || line == [0x0A]

namespace Source

/-- All bytes that are not yet consumed. -/
def bytes (s : Source) : List UInt8 :=
  s.buffer ++ s.coming.flatten

/-- How many bytes are not yet consumed. -/
def size (s : Source) : Nat :=
  s.buffer.length + s.coming.flatten.length

/-- Bytes in pieces of `width`, the last one as long as it comes; at most `fuel` pieces. -/
def piecesLoop (width : Nat) : Nat → List (List UInt8) → List UInt8 → List (List UInt8)
  | 0, acc, _ => acc.reverse
  | _ + 1, acc, [] => acc.reverse
  | fuel + 1, acc, b :: bs => piecesLoop width fuel ((b :: bs).take width :: acc) ((b :: bs).drop width)

/-- Bytes in pieces of `width`, the last one as long as it comes. -/
def pieces (width : Nat) (bs : List UInt8) : List (List UInt8) :=
  piecesLoop width bs.length [] bs

/-- A stream of bytes that arrive as fast as a buffer of `capacity` bytes takes them. -/
def ofBytes (capacity : Nat) (bs : List UInt8) (ending : Ending) : Source :=
  ⟨[], pieces capacity bs, ending⟩

/-- The first segment with something in it, and those after it. -/
def firstFull : List (List UInt8) → List UInt8 × List (List UInt8)
  | [] => ([], [])
  | [] :: coming => firstFull coming
  | (b :: bs) :: coming => (b :: bs, coming)

/-- The stream with something in its buffer, unless it has ended. -/
def fill (s : Source) : Source :=
  if s.buffer.isEmpty then
    let (buffer, coming) := firstFull s.coming
    { s with buffer, coming }
  else s

/-- The stream after the first `n` bytes of the buffer. -/
def consume (n : Nat) (s : Source) : Source :=
  { s with buffer := s.buffer.drop n }

/-! ## Lines -/

/-- Why a line ends. -/
inductive Stop where
  /-- The line has its line feed. -/
  | lineFeed
  /-- The line is as long as it may be and has no line feed yet. -/
  | full
  /-- The stream has no more bytes. -/
  | exhausted
deriving DecidableEq, Repr

/-- A line that was read: its bytes, the line feed among them, what is left, and why it ends. -/
structure Line where
  bytes : List UInt8
  rest : Source
  stop : Stop

/-- The line reader's loop: how many bytes the line may still have, its bytes so far in reverse, the buffer, what arrives
later. -/
def lineLoop (ending : Ending) : Nat → List UInt8 → List UInt8 → List (List UInt8) → Line
  | 0, acc, buffer, coming => ⟨acc.reverse, ⟨buffer, coming, ending⟩, .full⟩
  | _ + 1, acc, [], [] => ⟨acc.reverse, ⟨[], [], ending⟩, .exhausted⟩
  | n + 1, acc, [], segment :: coming => lineLoop ending (n + 1) acc segment coming
  | n + 1, acc, b :: bs, coming =>
    if b = 0x0A then ⟨(b :: acc).reverse, ⟨bs, coming, ending⟩, .lineFeed⟩
    else lineLoop ending n (b :: acc) bs coming
termination_by n _ _ coming => (n, coming.length)

/-- Reads up to and with the next line feed, but at most `limit` bytes. -/
def readLine (limit : Nat) (s : Source) : Line :=
  lineLoop s.ending limit [] s.buffer s.coming

/-! ## Laws -/

theorem length_bytes (s : Source) : s.bytes.length = s.size := by
  simp [bytes, size]

theorem bytes_lineLoop (ending : Ending) (n : Nat) (acc buffer : List UInt8) (coming : List (List UInt8)) :
    (lineLoop ending n acc buffer coming).bytes ++ (lineLoop ending n acc buffer coming).rest.bytes
      = acc.reverse ++ (buffer ++ coming.flatten) := by
  fun_induction lineLoop ending n acc buffer coming <;> simp_all [bytes]

/-- A line that is read, together with what is left, is what was there. -/
theorem bytes_readLine (limit : Nat) (s : Source) :
    (s.readLine limit).bytes ++ (s.readLine limit).rest.bytes = s.bytes := by
  simpa [readLine, bytes] using bytes_lineLoop s.ending limit [] s.buffer s.coming

/-- The length of the line and of the rest add up. -/
theorem size_readLine (limit : Nat) (s : Source) :
    (s.readLine limit).bytes.length + (s.readLine limit).rest.size = s.size := by
  rw [← length_bytes, ← length_bytes, ← List.length_append, bytes_readLine]

theorem ne_nil_lineLoop (ending : Ending) (n : Nat) (acc buffer : List UInt8) (coming : List (List UInt8))
    (h : (lineLoop ending n acc buffer coming).stop = .lineFeed) :
    (lineLoop ending n acc buffer coming).bytes ≠ [] := by
  fun_induction lineLoop ending n acc buffer coming <;> simp_all

/-- A line that has its line feed has a byte. -/
theorem ne_nil_readLine {limit : Nat} {s : Source} (h : (s.readLine limit).stop = .lineFeed) :
    (s.readLine limit).bytes ≠ [] :=
  ne_nil_lineLoop _ _ _ _ _ h

theorem bytes_firstFull (coming : List (List UInt8)) :
    (firstFull coming).1 ++ (firstFull coming).2.flatten = coming.flatten := by
  fun_induction firstFull coming <;> simp_all

@[simp] theorem bytes_fill (s : Source) : s.fill.bytes = s.bytes := by
  unfold fill
  split
  · rename_i h
    simp only [bytes, bytes_firstFull, List.isEmpty_iff.1 h, List.nil_append]
  · rfl

@[simp] theorem size_fill (s : Source) : s.fill.size = s.size := by
  rw [← length_bytes, ← length_bytes, bytes_fill]

theorem size_consume (n : Nat) (s : Source) : (s.consume n).size + min n s.buffer.length = s.size := by
  simp only [consume, size, List.length_drop]
  omega

end Source
end Http
end SearchTelemetry
