import SearchTelemetry.Allocator
import SearchTelemetry.Fault
import SearchTelemetry.Instant.Reader
import SearchTelemetry.Json.Printer
import SearchTelemetry.Json.Written
import SearchTelemetry.Text.Quoted
/-!
# Report — what clients send, and what is kept of it

A report is read leniently: a field that is absent has a default.  It is then checked, and becomes either a record or a
fault.  A record has no sentinels left: what was not clicked is `none`, and a time is an instant.
-/
namespace SearchTelemetry

/-! ## Reports -/

/-- Which results a search showed and which of them was clicked, as a client tells it. -/
structure SearchReport where
  queryId : Option QueryId
  rawQuery : String
  results : List String
  /-- A position in `results`; −1 stands for none. -/
  clicked : Option Int64
  queryTimestamp : Option String
deriving DecidableEq, Repr

/-- What a user has to say. -/
structure FeedbackReport where
  label : String
  title : String
  text : String
deriving DecidableEq, Repr

/-- Metric entries, in an object under the name `metrics` or on their own. -/
inductive MetricsReport where
  | wrapped (metrics : List Json.Value)
  | bare (metrics : List Json.Value)

/-- The entries of a metrics report, whichever way they came. -/
def MetricsReport.entries : MetricsReport → List Json.Value
  | wrapped metrics => metrics
  | bare metrics => metrics

/-! ## Records -/

/-- A search report that was accepted. -/
structure SearchRecord where
  queryId : QueryId
  rawQuery : String
  results : List String
  clicked : Option UInt64
  queryTimestamp : Instant
  receivedAt : Instant
deriving DecidableEq, Repr

/-- Feedback that was accepted. -/
structure FeedbackRecord where
  label : String
  title : String
  text : String
  receivedAt : Instant
deriving DecidableEq, Repr

/-- Metrics that were accepted: every entry has named values. -/
structure MetricsRecord where
  component : String
  metrics : List Json.Fields
  receivedAt : Instant

/-! ## Checking -/

/-- The instant that a client's text stands for. -/
def timestamp (raw : String) : Except Fault Instant :=
  match Instant.read? raw.toList with
  | some t => .ok t
  | none =>
    .error (.invalidArgument ("unparseable query_timestamp " ++ Quoted.quote (Blank.trimString raw)
      ++ ": neither form of a date and time"))

namespace SearchReport

/-- The position that was clicked, if it is one of the results. -/
def checkClicked (results : List String) : Option Int64 → Except Fault (Option UInt64)
  | none => .ok none
  | some index =>
    if index = -1 then .ok none
    else if index < 0 then
      .error (.invalidArgument ("clicked must be -1 or a result index, got " ++ Numeral.intText index.toInt))
    else if results.isEmpty then
      .error (.invalidArgument
        ("clicked references index " ++ Numeral.intText index.toInt ++ " but results is empty"))
    else if results.length ≤ index.toInt.toNat then
      .error (.invalidArgument
        ("clicked index " ++ Numeral.intText index.toInt ++ " out of range for "
          ++ Numeral.text results.length ++ " results"))
    else .ok (some index.toInt.toNat.toUInt64)

/-- The record of a report received at an instant. -/
def validate (now : Instant) (r : SearchReport) : Except Fault SearchRecord := do
  let queryId ←
    match r.queryId with
    | some id => pure id
    | none => throw (.invalidArgument "query_ID is required")
  let clicked ← checkClicked r.results r.clicked
  let raw ←
    match r.queryTimestamp with
    | some raw => pure raw
    | none => throw (.invalidArgument "query_timestamp is required")
  let queryTimestamp ← timestamp raw
  return { queryId, rawQuery := r.rawQuery, results := r.results, clicked, queryTimestamp, receivedAt := now }

end SearchReport

/-- The record of feedback received at an instant. -/
def FeedbackReport.validate (now : Instant) (r : FeedbackReport) : Except Fault FeedbackRecord :=
  if Blank.isAllBlank r.label then .error (.invalidArgument "feedback label must not be empty")
  else if Blank.isAllBlank r.text then .error (.invalidArgument "feedback text must not be empty")
  else .ok { label := r.label, title := r.title, text := r.text, receivedAt := now }

namespace MetricsReport

/-- Every entry as an object, the first of them at a position. -/
def checkEntries : Nat → List Json.Value → Except Fault (List Json.Fields)
  | _, [] => .ok []
  | i, v :: vs =>
    match v.object? with
    | some fields => (checkEntries (i + 1) vs).map (fields :: ·)
    | none =>
      .error (.invalidArgument
        ("metric entry " ++ Numeral.text i ++ " must be an object, got " ++ v.text))

/-- The record of metrics from a component, received at an instant. -/
def validate (now : Instant) (component : String) (r : MetricsReport) : Except Fault MetricsRecord :=
  if Blank.isAllBlank component then .error (.invalidArgument "component must not be empty")
  else (checkEntries 0 r.entries).map fun metrics => { component, metrics, receivedAt := now }

end MetricsReport

/-! ## Written form of reports -/

open Json (Value Written)

namespace SearchReport

/-- The names of the fields. -/
def fieldNames : List String :=
  ["query_ID", "raw_query", "results", "clicked", "query_timestamp"]

/-- A report as an object. -/
def toValue (r : SearchReport) : Value :=
  .object
    [("query_ID", .ofOption (fun id => .int id.toInt) r.queryId),
      ("raw_query", .string r.rawQuery),
      ("results", .array (r.results.map .string)),
      ("clicked", .ofOption (fun i => .int i.toInt) r.clicked),
      ("query_timestamp", .ofOption .string r.queryTimestamp)]

/-- The strings of an array of strings. -/
def strings? (v : Value) : Option (List String) :=
  v.array?.bind fun vs => vs.mapM Value.string?

/-- A report from its fields. -/
def ofWritten? (w : Written) : Option SearchReport := do
  guard (w.fits 5)
  let queryId ← w.fieldOr? 0 "query_ID" none (Value.optional? Value.int64?)
  let rawQuery ← w.fieldOr? 1 "raw_query" "" Value.string?
  let results ← w.fieldOr? 2 "results" [] strings?
  let clicked ← w.fieldOr? 3 "clicked" none (Value.optional? Value.int64?)
  let queryTimestamp ← w.fieldOr? 4 "query_timestamp" none (Value.optional? Value.string?)
  return { queryId, rawQuery, results, clicked, queryTimestamp }

/-- A report out of bytes. -/
def read? (bs : List UInt8) : Option SearchReport :=
  (Written.lenient? fieldNames bs).bind ofWritten?

end SearchReport

namespace FeedbackReport

/-- The names of the fields. -/
def fieldNames : List String :=
  ["label", "title", "text"]

/-- Feedback as an object. -/
def toValue (r : FeedbackReport) : Value :=
  .object [("label", .string r.label), ("title", .string r.title), ("text", .string r.text)]

/-- Feedback from its fields. -/
def ofWritten? (w : Written) : Option FeedbackReport := do
  guard (w.fits 3)
  let label ← w.fieldOr? 0 "label" "" Value.string?
  let title ← w.fieldOr? 1 "title" "" Value.string?
  let text ← w.fieldOr? 2 "text" "" Value.string?
  return { label, title, text }

/-- Feedback out of bytes. -/
def read? (bs : List UInt8) : Option FeedbackReport :=
  (Written.lenient? fieldNames bs).bind ofWritten?

end FeedbackReport

namespace MetricsReport

/-- Metrics as they are sent. -/
def toValue : MetricsReport → Value
  | wrapped metrics => .object [("metrics", .array metrics)]
  | bare metrics => .array metrics

/-- Metrics from their fields, or from the entries alone. -/
def ofWritten? : Written → Option MetricsReport
  | .listed vs => some (.bare vs)
  | w@(.named _) => (w.required? 0 "metrics" Value.array?).map .wrapped

/-- Metrics out of bytes. -/
def read? (bs : List UInt8) : Option MetricsReport :=
  (Written.strict? bs).bind ofWritten?

end MetricsReport

/-! ## Written form of records -/

/-- The instant of a text in the relaxed form. -/
def instant? (v : Value) : Option Instant :=
  v.string?.bind fun s => Instant.relaxed? s.toList

/-- An instant as a value. -/
def instantValue (t : Instant) : Value :=
  .string t.text

namespace SearchRecord

/-- The fields of a search record. -/
def toFields (r : SearchRecord) : Json.Fields :=
  [("query_ID", .int r.queryId.toInt),
    ("raw_query", .string r.rawQuery),
    ("results", .array (r.results.map .string)),
    ("clicked", .ofOption (fun i => .nat i.toNat) r.clicked),
    ("query_timestamp", instantValue r.queryTimestamp),
    ("received_at", instantValue r.receivedAt)]

/-- A search record from its fields. -/
def ofWritten? (w : Written) : Option SearchRecord := do
  guard (w.fits 6)
  let queryId ← w.required? 0 "query_ID" Value.int64?
  let rawQuery ← w.required? 1 "raw_query" Value.string?
  let results ← w.required? 2 "results" SearchReport.strings?
  let clicked ← w.nullable? 3 "clicked" (Value.unsigned? 64)
  let queryTimestamp ← w.required? 4 "query_timestamp" instant?
  let receivedAt ← w.required? 5 "received_at" instant?
  return { queryId, rawQuery, results, clicked := clicked.map Nat.toUInt64, queryTimestamp, receivedAt }

end SearchRecord

namespace FeedbackRecord

/-- The fields of a feedback record. -/
def toFields (r : FeedbackRecord) : Json.Fields :=
  [("label", .string r.label), ("title", .string r.title), ("text", .string r.text),
    ("received_at", instantValue r.receivedAt)]

/-- A feedback record from its fields. -/
def ofWritten? (w : Written) : Option FeedbackRecord := do
  guard (w.fits 4)
  let label ← w.required? 0 "label" Value.string?
  let title ← w.required? 1 "title" Value.string?
  let text ← w.required? 2 "text" Value.string?
  let receivedAt ← w.required? 3 "received_at" instant?
  return { label, title, text, receivedAt }

end FeedbackRecord

namespace MetricsRecord

/-- The fields of a metrics record. -/
def toFields (r : MetricsRecord) : Json.Fields :=
  [("component", .string r.component), ("metrics", .array (r.metrics.map .object)),
    ("received_at", instantValue r.receivedAt)]

/-- A metrics record from its fields. -/
def ofWritten? (w : Written) : Option MetricsRecord := do
  guard (w.fits 3)
  let component ← w.required? 0 "component" Value.string?
  let metrics ← w.required? 1 "metrics" fun v => v.array?.bind fun vs => vs.mapM Value.object?
  let receivedAt ← w.required? 2 "received_at" instant?
  return { component, metrics, receivedAt }

end MetricsRecord
end SearchTelemetry
