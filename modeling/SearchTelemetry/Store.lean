import SearchTelemetry.Causes
import SearchTelemetry.Journal
/-!
# Store — what the service keeps

Reports are kept in memory, those of a search session under its identifier.  With a journal, a report is first written
there and only then kept, so that one that cannot be written leaves no trace.  A store that is opened on a journal keeps
what the journal tells.  Which identifiers were issued is kept too, but not journaled.
-/
namespace SearchTelemetry

open Json (Value)

/-! ## Queries -/

/-- All that is known of one identifier. -/
structure QueryRecord where
  queryId : QueryId
  /-- When the identifier was issued, if that was since the start. -/
  allocatedAt : Option Instant
  /-- The reports on it, in the order in which they came. -/
  searchResults : List SearchRecord
deriving DecidableEq, Repr

namespace QueryRecord

/-- An identifier of which nothing is known yet. -/
def ofId (queryId : QueryId) : QueryRecord :=
  ⟨queryId, none, []⟩

/-- The record after one more report. -/
def addReport (r : SearchRecord) (q : QueryRecord) : QueryRecord :=
  { q with searchResults := q.searchResults ++ [r] }

/-- The fields of a record. -/
def toFields (q : QueryRecord) : Json.Fields :=
  [("query_ID", .int q.queryId.toInt), ("allocated_at", .ofOption instantValue q.allocatedAt),
    ("search_results", .array (q.searchResults.map fun r => .object r.toFields))]

end QueryRecord

/-- What is known of identifiers, a record for each, in the order in which they were first heard of. -/
abbrev Queries := List QueryRecord

namespace Queries

/-- What is known of an identifier. -/
def find? (qs : Queries) (id : QueryId) : Option QueryRecord :=
  List.find? (·.queryId = id) qs

/-- Changes what is known of an identifier, which may be new. -/
def update (id : QueryId) (f : QueryRecord → QueryRecord) : Queries → Queries
  | [] => [f (.ofId id)]
  | q :: qs => if q.queryId = id then f q :: qs else q :: update id f qs

end Queries

/-! ## Memory -/

/-- What is kept in memory. -/
structure Memory where
  queries : Queries
  feedback : List FeedbackRecord
  metrics : List MetricsRecord

namespace Memory

/-- Nothing is kept yet. -/
def empty : Memory :=
  ⟨[], [], []⟩

/-- Memory after one more entry. -/
def add (m : Memory) : JournalEntry → Memory
  | .searchResults r => { m with queries := Queries.update r.queryId (QueryRecord.addReport r) m.queries }
  | .feedback r => { m with feedback := m.feedback ++ [r] }
  | .metrics r => { m with metrics := m.metrics ++ [r] }

/-- Memory after entries, in order. -/
def ofEntries (es : List JournalEntry) : Memory :=
  es.foldl add empty

end Memory

/-! ## Stores -/

/-- What the service keeps: memory, and the journal if there is one. -/
structure Store where
  memory : Memory
  journal : Option Journal

/-- How much a store keeps. -/
structure Summary where
  queries : Nat
  searchReports : Nat
  feedback : Nat
  metrics : Nat
deriving DecidableEq, Repr

namespace Store

/-- A store without a journal. -/
def inMemory : Store :=
  ⟨.empty, none⟩

/-- A store on a journal with these bytes. -/
def ofJournal (bs : List UInt8) : Store :=
  ⟨.ofEntries (Journal.entries bs), some (.ofBytes bs)⟩

/-- Keeps an entry: in the journal first, then in memory. -/
def commit (s : Store) (e : JournalEntry) : Store × Option Fault :=
  match s.journal with
  | none => ({ s with memory := s.memory.add e }, none)
  | some j =>
    match j.append e.line with
    | (j, none) => (⟨s.memory.add e, some j⟩, none)
    | (j, some fault) => ({ s with journal := some j }, some fault)

/-- Keeps a search report. -/
def addSearchResults (s : Store) (r : SearchRecord) : Store × Option Fault :=
  s.commit (.searchResults r)

/-- Keeps feedback. -/
def addFeedback (s : Store) (r : FeedbackRecord) : Store × Option Fault :=
  s.commit (.feedback r)

/-- Keeps metrics; where there are none, nothing is kept and all is well. -/
def addMetrics (s : Store) (r : MetricsRecord) : Store × Option Fault :=
  if r.metrics.isEmpty then (s, none) else s.commit (.metrics r)

/-- Notes that an identifier was issued at an instant. -/
def recordAllocation (s : Store) (now : Instant) (id : QueryId) : Store :=
  { s with
    memory :=
      { s.memory with
        queries := Queries.update id (fun q => { q with allocatedAt := some now }) s.memory.queries } }

/-- All that is known of an identifier. -/
def query (s : Store) (id : QueryId) : Except Fault QueryRecord :=
  match s.memory.queries.find? id with
  | some q => .ok q
  | none => .error (.notFound ("query_ID " ++ Numeral.intText id.toInt ++ " is unknown"))

/-- Adds one to the count of a text. -/
def bump (text : String) : List (String × Nat) → List (String × Nat)
  | [] => [(text, 1)]
  | (t, n) :: rest => if t = text then (t, n + 1) :: rest else (t, n) :: bump text rest

/-- The queries that were reported, other than the empty one, and how often each was. -/
def rawQueryCounts (s : Store) : List (String × Nat) :=
  ((s.memory.queries.flatMap (·.searchResults)).filter (·.rawQuery ≠ "")).foldl
    (fun counts r => bump r.rawQuery counts) []

/-- How much the store keeps. -/
def summary (s : Store) : Summary :=
  { queries := s.memory.queries.length
    searchReports := (s.memory.queries.flatMap (·.searchResults)).length
    feedback := s.memory.feedback.length
    metrics := s.memory.metrics.length }

end Store

/-! ## Opening -/

/-- What a data directory holds. -/
inductive DataDirectory where
  /-- The journal's bytes, none if it is new. -/
  | journal (bytes : List UInt8)
  /-- It is no directory but a file. -/
  | isFile
  /-- A directory on the way to it is no directory but a file. -/
  | behindFile
  /-- The journal is no file but a directory. -/
  | journalIsDirectory

/-- Opens the store in a data directory, which the faults name. -/
def Store.open? (name : String) : DataDirectory → Except Causes Store
  | .journal bytes => .ok (.ofJournal bytes)
  | .isFile => .error ⟨"Failed to open store in " ++ name,
      ["Failed to create data directory", "File exists (os error 17)"]⟩
  | .behindFile => .error ⟨"Failed to open store in " ++ name,
      ["Failed to create data directory", "Not a directory (os error 20)"]⟩
  | .journalIsDirectory => .error ⟨"Failed to open store in " ++ name,
      ["Failed to read journal", "Is a directory (os error 21)"]⟩

end SearchTelemetry
