import SearchTelemetry.Command
import SearchTelemetry.Store
import SearchTelemetry.Suggestion
/-!
# Service — requests and their answers

A request goes to an endpoint by its path, is read as a command, and the command is carried out on the counter and the
store.  Whatever goes wrong on the way is a fault, and a fault is answered with its status and its message.
-/
namespace SearchTelemetry

open Json (Value)

/-- A service: the counter, the store, and the largest number of suggestions that may be asked for. -/
structure Service where
  allocator : Allocator
  store : Store
  maxSuggestions : Nat

/-- A request as it reaches the service. -/
structure Incoming where
  method : String
  /-- The path, with a query string if there is one. -/
  target : String
  headers : Headers
  body : List UInt8

/-- An answer. -/
structure Answer where
  status : Nat
  contentType : String
  body : List UInt8
deriving DecidableEq, Repr

namespace Answer

/-- Success, with a value. -/
def ofValue (v : Value) : Answer :=
  ⟨200, "application/json", v.bytes⟩

/-- A text under a status. -/
def ofText (status : Nat) (text : String) : Answer :=
  ⟨status, "text/plain; charset=utf-8", Utf8.bytes text⟩

/-- The answer to a request that fails. -/
def ofFault (f : Fault) : Answer :=
  ofText f.status f.message

/-- Success, with nothing to tell. -/
def acknowledged : Answer :=
  ofValue (.object [])

end Answer

/-! ## Paths -/

/-- Where a request goes. -/
inductive Route where
  /-- To the endpoint of this name, if there is one. -/
  | endpoint (name : String)
  /-- To an endpoint whose name is no text. -/
  | unreadable
  /-- Nowhere. -/
  | none (path : String)
deriving DecidableEq, Repr

namespace Route

/-- The path of a target: what stands before a query string or a fragment. -/
def path (target : String) : String :=
  String.ofList (target.toList.takeWhile fun c => c != '?' && c != '#')

/-- The value of a byte that is a hexadecimal digit. -/
def hexByte? (b : UInt8) : Option Nat :=
  Numeral.hexValue? (Char.ofNat b.toNat)

/-- Bytes with each `%` and two hexadecimal digits behind it taken for the byte that they name; a `%` without them stands
for itself. -/
def unescape : List UInt8 → List UInt8
  | [] => []
  | [a] => [a]
  | [a, b] => [a, b]
  | a :: b :: c :: rest =>
    match a == 0x25, hexByte? b, hexByte? c with
    | true, some high, some low => (high * 16 + low).toUInt8 :: unescape rest
    | _, _, _ => a :: unescape (b :: c :: rest)

/-- The route of a target.  An endpoint's path has one part more than the start of all their paths. -/
def ofTarget (target : String) : Route :=
  let path := path target
  if path.startsWith Endpoint.pathStart then
    let name := path.toList.drop Endpoint.pathStart.length
    if name.isEmpty || name.contains '/' then none path
    else
      match Utf8.string? (unescape (Utf8.encode name)) with
      | some name => endpoint name
      | Option.none => unreadable
  else none path

end Route

/-! ## Commands -/

namespace Service

/-- A service on a store, with a counter that begins anew. -/
def ofStore (store : Store) (firstQueryId : QueryId) (maxSuggestions : Nat) : Service :=
  ⟨.ofFirst firstQueryId, store, maxSuggestions⟩

/-- Why that many suggestions are not given. -/
def tooManySuggestions (max : Nat) (count : Int64) : Fault :=
  .invalidArgument ("num_suggestions must be between 0 and " ++ Numeral.text max ++ ", got "
    ++ Numeral.intText count.toInt)

/-- What keeping a report comes to. -/
def kept (s : Service) (r : Store × Option Fault) : Service × Except Fault Answer :=
  ({ s with store := r.1 },
    match r.2 with
    | none => .ok .acknowledged
    | some fault => .error fault)

/-- Carries out a command at an instant. -/
def execute (now : Instant) (s : Service) : Command → Service × Except Fault Answer
  | .getAutofill partialQuery count =>
    if 0 ≤ count.toInt ∧ count.toInt.toNat ≤ s.maxSuggestions then
      let suggestions := Suggestion.suggest s.store.rawQueryCounts partialQuery count.toInt.toNat
      (s, .ok (.ofValue (.object [("suggestions", .array (suggestions.map .string))])))
    else (s, .error (tooManySuggestions s.maxSuggestions count))
  | .getQueryId =>
    match s.allocator.allocateWith fun id => .recorded (s.store.recordAllocation now id) with
    | (allocator, .issued id store) =>
      ({ s with allocator, store }, .ok (.ofValue (.object [("query_ID", .int id.toInt)])))
    | (allocator, .refused fault) => ({ s with allocator }, .error fault)
    | (allocator, .brokeOff) => ({ s with allocator }, .error Allocator.brokenFault)
  | .reportSearchResults report =>
    match report.validate now with
    | .error fault => (s, .error fault)
    | .ok record => s.kept (s.store.addSearchResults record)
  | .submitFeedback report =>
    match report.validate now with
    | .error fault => (s, .error fault)
    | .ok record => s.kept (s.store.addFeedback record)
  | .getQueryData id => (s, (s.store.query id).map fun q => .ofValue (.object q.toFields))
  | .reportMetrics component report =>
    match report.validate now component with
    | .error fault => (s, .error fault)
    | .ok record => s.kept (s.store.addMetrics record)

/-! ## Requests -/

/-- The largest body that is taken in. -/
def maxBody : Nat := 2097152

/-- Reads the command of a request to the endpoint of a name, and carries it out. -/
def dispatch (now : Instant) (s : Service) (name : String) (r : Incoming) : Service × Except Fault Answer :=
  match Endpoint.ofName? name with
  | none => (s, .error (.notFound ("no endpoint named " ++ Quoted.quote name)))
  | some e =>
    match Command.decode e r.method r.headers r.body with
    | .error fault => (s, .error fault)
    | .ok c => s.execute now c

/-- The answer that an outcome is told with. -/
def answerOf : Except Fault Answer → Answer
  | .ok a => a
  | .error fault => .ofFault fault

/-- Answers a request at an instant. -/
def handle (now : Instant) (s : Service) (r : Incoming) : Service × Answer :=
  match Route.ofTarget r.target with
  | .none path => (s, .ofFault (.notFound ("no route for " ++ r.method ++ " " ++ path)))
  | .unreadable => (s, .ofText 400 "Invalid URL: Invalid UTF-8 in \x60endpoint\x60")
  | .endpoint name =>
    if maxBody < r.body.length then
      (s, .ofText 413 "Failed to buffer the request body: length limit exceeded")
    else
      let (s, outcome) := s.dispatch now name r
      (s, answerOf outcome)

end Service
end SearchTelemetry
