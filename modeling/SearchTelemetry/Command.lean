import SearchTelemetry.Report
/-!
# Command — requests by what they ask for

Single values travel as header parameters, everything larger as a JSON body.  Each endpoint takes one method and stands for
one kind of command; `decode` reads a command out of a request and `encode` writes the request that asks for it, so that
the service and its tool cannot drift apart.

A parameter's header has two spellings, with underscores and with hyphens, in any letter case.  If both are there, the one
with underscores counts, and of several with one spelling the first.
-/
namespace SearchTelemetry

/-! ## Endpoints -/

/-- What the service can be asked. -/
inductive Endpoint where
  | getAutofill
  | getQueryId
  | reportSearchResults
  | submitFeedback
  | getQueryData
  | reportMetrics
deriving DecidableEq, Repr

namespace Endpoint

/-- Every endpoint. -/
def all : List Endpoint :=
  [getAutofill, getQueryId, reportSearchResults, submitFeedback, getQueryData, reportMetrics]

/-- The name in a path and on the command line. -/
def name : Endpoint → String
  | getAutofill => "GetAutofill"
  | getQueryId => "GetQueryID"
  | reportSearchResults => "ReportSearchResults"
  | submitFeedback => "SubmitFeedback"
  | getQueryData => "GetQueryData"
  | reportMetrics => "ReportMetrics"

/-- The one method that an endpoint takes. -/
def method : Endpoint → String
  | getAutofill | getQueryId | getQueryData => "GET"
  | reportSearchResults | submitFeedback | reportMetrics => "POST"

/-- What stands before the name in every path. -/
def pathStart : String := "/v0/"

/-- The path of an endpoint. -/
def path (e : Endpoint) : String :=
  pathStart ++ e.name

/-- The endpoint of a name, letter case and all. -/
def ofName? (name : String) : Option Endpoint :=
  all.find? (·.name == name)

/-- A name leads back to its endpoint. -/
theorem ofName?_name (e : Endpoint) : ofName? e.name = some e := by
  cases e <;> decide

end Endpoint

/-! ## Header parameters -/

/-- Headers as they came, each with its bytes. -/
abbrev Headers := List (String × List UInt8)

namespace Headers

/-- A name in lower case. -/
def lower (name : String) : String :=
  String.ofList (name.toList.map Char.toLower)

/-- A name with hyphens for underscores. -/
def hyphenated (name : String) : String :=
  String.ofList (name.toList.map fun c => if c = '_' then '-' else c)

/-- The first header of a name, in any letter case. -/
def first? (headers : Headers) (name : String) : Option (List UInt8) :=
  (headers.find? fun h => lower h.1 == lower name).map (·.2)

/-- The parameter of a name, in either spelling. -/
def parameter? (headers : Headers) (name : String) : Option String :=
  match headers.first? name with
  | some v => some (Utf8.lossy v)
  | none => (headers.first? (hyphenated name)).map Utf8.lossy

end Headers

/-- The partial query that suggestions extend. -/
def partialQueryName : String := "partial_query"

/-- How many suggestions are wanted. -/
def numSuggestionsName : String := "num_suggestions"

/-- The query that is asked about. -/
def queryIdName : String := "query_ID"

/-- The component that metrics come from. -/
def componentName : String := "component"

/-! ## Commands -/

/-- A request that has been read. -/
inductive Command where
  /-- Suggestions for a partly typed query.  The count is signed, as a client may ask for any number. -/
  | getAutofill (partialQuery : String) (numSuggestions : Int64)
  /-- A new query identifier. -/
  | getQueryId
  /-- A search report to keep. -/
  | reportSearchResults (report : SearchReport)
  /-- Feedback to keep. -/
  | submitFeedback (report : FeedbackReport)
  /-- Everything known of one query. -/
  | getQueryData (queryId : QueryId)
  /-- Metrics of a component to keep. -/
  | reportMetrics (component : String) (report : MetricsReport)

/-- A request taken apart. -/
structure Request where
  method : String
  path : String
  headers : List (String × String)
  body : Option (List UInt8)
deriving DecidableEq, Repr

namespace Command

/-- The endpoint that takes a command. -/
def endpoint : Command → Endpoint
  | getAutofill .. => .getAutofill
  | getQueryId => .getQueryId
  | reportSearchResults _ => .reportSearchResults
  | submitFeedback _ => .submitFeedback
  | getQueryData _ => .getQueryData
  | reportMetrics .. => .reportMetrics

/-- The JSON body of a request, through a reader. -/
def jsonBody {α : Type} (e : Endpoint) (read? : List UInt8 → Option α) (body : List UInt8) : Except Fault α :=
  if body.all Blank.isBlankByte then .error (.invalidArgument (e.name ++ " requires a JSON body"))
  else
    match read? body with
    | some a => .ok a
    | none => .error (.invalidArgument ("malformed " ++ e.name ++ " body: not the JSON that is expected"))

/-- The count of suggestions that is asked for. -/
def decodeCount (raw : String) : Except Fault Int64 :=
  match (Numeral.int64? (Blank.trim raw.toList)).filter (0 ≤ ·) with
  | some n => .ok n
  | none =>
    .error (.invalidArgument ("num_suggestions must be a non-negative integer, got " ++ Quoted.quote raw))

/-- The query identifier that is asked about. -/
def decodeQueryId (raw : String) : Except Fault QueryId :=
  match Numeral.int64? (Blank.trim raw.toList) with
  | some id => .ok id
  | none => .error (.invalidArgument ("query_ID must be an integer, got " ++ Quoted.quote raw))

/-- The command that a request to an endpoint stands for. -/
def decode (e : Endpoint) (method : String) (headers : Headers) (body : List UInt8) : Except Fault Command :=
  if method ≠ e.method then .error (.methodNotAllowed e.name method)
  else
    match e with
    | .getAutofill =>
      match headers.parameter? numSuggestionsName with
      | none => .error (.invalidArgument "num_suggestions header is required")
      | some raw =>
        (decodeCount raw).map (getAutofill ((headers.parameter? partialQueryName).getD "") ·)
    | .getQueryId => .ok getQueryId
    | .reportSearchResults => (jsonBody e SearchReport.read? body).map reportSearchResults
    | .submitFeedback => (jsonBody e FeedbackReport.read? body).map submitFeedback
    | .getQueryData =>
      match headers.parameter? queryIdName with
      | none => .error (.invalidArgument "query_ID header is required")
      | some raw => (decodeQueryId raw).map getQueryData
    | .reportMetrics =>
      (jsonBody e MetricsReport.read? body).map (reportMetrics ((headers.parameter? componentName).getD "") ·)

/-- The header that goes with a body. -/
def jsonType : String × String :=
  ("content-type", "application/json")

/-- The parameters of a command. -/
def parameters : Command → List (String × String)
  | getAutofill partialQuery numSuggestions =>
    [(partialQueryName, partialQuery), (numSuggestionsName, Numeral.intText numSuggestions.toInt)]
  | getQueryData queryId => [(queryIdName, Numeral.intText queryId.toInt)]
  | reportMetrics component _ => [(componentName, component)]
  | _ => []

/-- The body of a command, if it has one. -/
def body? : Command → Option (List UInt8)
  | reportSearchResults report => some report.toValue.bytes
  | submitFeedback report => some report.toValue.bytes
  | reportMetrics _ report => some report.toValue.bytes
  | _ => none

/-- The request that asks for a command. -/
def encode (c : Command) : Request :=
  { method := c.endpoint.method
    path := c.endpoint.path
    headers := c.parameters ++ (if c.body?.isSome then [jsonType] else [])
    body := c.body? }

end Command
end SearchTelemetry
