import SearchTelemetry.Report
/-!
# Journal — accepted reports as lines of a file

Every accepted report becomes one line, which is added whole or not at all: what a failed write leaves behind is cut off
again.  A journal is replayed line by line.  Blank lines and lines that are no entry are passed over, the last line too
if a crash cut it short; a line feed is then added so that the next entry has a line of its own.
-/
namespace SearchTelemetry

open Json (Value Written)

/-! ## Entries -/

/-- What a line of the journal tells. -/
inductive JournalEntry where
  | searchResults (record : SearchRecord)
  | feedback (record : FeedbackRecord)
  | metrics (record : MetricsRecord)

namespace JournalEntry

/-- The kinds of entries, as the lines name them. -/
def kind : JournalEntry → String
  | searchResults _ => "SearchResults"
  | feedback _ => "Feedback"
  | metrics _ => "Metrics"

/-- The fields of the record in an entry. -/
def recordFields : JournalEntry → Json.Fields
  | searchResults r => r.toFields
  | feedback r => r.toFields
  | metrics r => r.toFields

/-- An entry as an object, its kind in front. -/
def toValue (e : JournalEntry) : Value :=
  .object (("type", .string e.kind) :: e.recordFields)

/-- The line of an entry. -/
def line (e : JournalEntry) : List UInt8 :=
  e.toValue.bytes ++ [0x0A]

/-- The entry of a kind with these fields. -/
def ofKind? (kind : String) (w : Written) : Option JournalEntry :=
  if kind = "SearchResults" then (SearchRecord.ofWritten? w).map searchResults
  else if kind = "Feedback" then (FeedbackRecord.ofWritten? w).map feedback
  else if kind = "Metrics" then (MetricsRecord.ofWritten? w).map metrics
  else none

/-- The entry that a line tells. -/
def ofLine? (bs : List UInt8) : Option JournalEntry := do
  let w ← Written.strict? bs
  let (kind, w) ← w.tagged? "type"
  ofKind? kind w

end JournalEntry

/-! ## Lines -/

namespace Journal

/-- The name of the journal's file. -/
def fileName : String := "evaluation-journal.jsonl"

/-- Bytes by lines, each with its line feed; the line so far is in `acc`, in reverse, and the lines before it in `lines`. -/
def linesLoop : List (List UInt8) → List UInt8 → List UInt8 → List (List UInt8)
  | lines, [], [] => lines.reverse
  | lines, acc, [] => (acc.reverse :: lines).reverse
  | lines, acc, b :: bs =>
    if b = 0x0A then linesLoop ((b :: acc).reverse :: lines) [] bs else linesLoop lines (b :: acc) bs

/-- Bytes by lines, each with its line feed but perhaps the last. -/
def lines (bs : List UInt8) : List (List UInt8) :=
  linesLoop [] [] bs

/-- The entries of a journal, in order. -/
def entries (bs : List UInt8) : List JournalEntry :=
  (lines bs).filterMap fun l => if l.all Blank.isBlankByte then none else JournalEntry.ofLine? l

/-- The last line has no line feed. -/
def isTorn (bs : List UInt8) : Bool :=
  match bs.getLast? with
  | some b => b != 0x0A
  | none => false

/-- The journal with its last line ended. -/
def mended (bs : List UInt8) : List UInt8 :=
  if isTorn bs then bs ++ [0x0A] else bs

end Journal

/-! ## The file -/

/-- A journal open for writing: its bytes, and how many more the device takes; `none` for any number. -/
structure Journal where
  bytes : List UInt8
  room : Option Nat
deriving DecidableEq, Repr

namespace Journal

/-- Opens a journal that has these bytes. -/
def ofBytes (bs : List UInt8) : Journal :=
  ⟨mended bs, none⟩

/-- Why an entry is not written. -/
def appendFault : Fault :=
  .storage "failed to append to journal: No space left on device (os error 28)"

/-- The device takes so many bytes more. -/
def takes (j : Journal) (n : Nat) : Bool :=
  j.room.all (n ≤ ·)

/-- The journal after a write, of which as much is there as the device takes. -/
def write (j : Journal) (bs : List UInt8) : Journal :=
  match j.room with
  | none => { j with bytes := j.bytes ++ bs }
  | some n => { bytes := j.bytes ++ bs.take n, room := some (n - bs.length) }

/-- The journal with its first `size` bytes only; what is cut off makes room on the device. -/
def truncate (j : Journal) (size : Nat) : Journal :=
  { bytes := j.bytes.take size, room := j.room.map (· + (j.bytes.length - size)) }

/-- The journal after an attempt to add a line, and what was in the way. -/
def append (j : Journal) (line : List UInt8) : Journal × Option Fault :=
  if j.takes line.length then (j.write line, none)
  else ((j.write line).truncate j.bytes.length, some appendFault)

/-- A line that is not added leaves the journal as it was. -/
theorem bytes_append_of_fault {j : Journal} {line : List UInt8} {fault : Fault} (h : (j.append line).2 = some fault) :
    (j.append line).1.bytes = j.bytes := by
  unfold append at h ⊢
  split
  · rename_i ht
    rw [if_pos ht] at h
    cases h
  · unfold write truncate
    split <;> simp

/-- A line that is added stands at the end. -/
theorem bytes_append {j : Journal} {line : List UInt8} (h : (j.append line).2 = none) :
    (j.append line).1.bytes = j.bytes ++ line := by
  unfold append at h ⊢
  split
  · rename_i ht
    unfold write
    unfold takes at ht
    cases hr : j.room with
    | none => rfl
    | some n =>
      rw [hr] at ht
      have hn : line.length ≤ n := by simpa using ht
      simp [List.take_of_length_le hn]
  · rename_i ht
    rw [if_neg ht] at h
    cases h

end Journal
end SearchTelemetry
