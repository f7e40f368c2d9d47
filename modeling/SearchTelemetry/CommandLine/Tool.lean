import SearchTelemetry.Command
import SearchTelemetry.CommandLine.Reader
import SearchTelemetry.Settings.Merge
/-!
# CommandLine.Tool — the command line of the tool

Every endpoint of the service has a command of its name; one more command starts the relay.  Reports are given as JSON and
checked before anything is sent.  The address of the service may stand in front of a command or among its arguments, where
it counts more.
-/
namespace SearchTelemetry

/-- What the tool is to do. -/
inductive ToolAction where
  | getAutofill (partialQuery : String) (count : Int64)
  | getQueryId
  | reportSearchResults (json : String)
  | submitFeedback (json : String)
  | getQueryData (queryId : Int64)
  | reportMetrics (component json : String)
  /-- Relay from a port of this host to the service. -/
  | relay (port : UInt16)
deriving DecidableEq, Repr

/-- A run of the tool. -/
structure ToolInvocation where
  ip : Option IpAddress
  port : Option UInt16
  action : ToolAction
deriving DecidableEq, Repr

namespace ToolAction

open CommandLine

/-- The options that say where the service is. -/
def addressChoices : List Choice :=
  [⟨"ip", none, .ip⟩, ⟨"port", some 'p', .port⟩]

/-- What a command with given operands takes. -/
def level (name : String) (operands : List Operand) : Level :=
  ⟨name, [helpFlag], addressChoices, operands⟩

/-- What the tool takes. -/
def grammar : Grammar :=
  { root := ⟨"evaltool", [helpFlag, versionFlag], addressChoices, []⟩
    commands :=
      [level Endpoint.getAutofill.name [⟨"partial_query", .text⟩, ⟨"num_suggestions", .integer⟩],
        level Endpoint.getQueryId.name [],
        level Endpoint.reportSearchResults.name [⟨"results_json", .text⟩],
        level Endpoint.submitFeedback.name [⟨"feedback_json", .text⟩],
        level Endpoint.getQueryData.name [⟨"query_id", .integer⟩],
        level Endpoint.reportMetrics.name [⟨"component", .text⟩, ⟨"metrics_json", .text⟩],
        level "proxy" [⟨"proxy_port", .port⟩]]
    needsCommand := true }

/-- The action of a command with its arguments. -/
def ofArguments? (command : String) (given : List (String × Argument)) : Option ToolAction :=
  match Endpoint.ofName? command with
  | some .getAutofill => do return getAutofill (← text? given "partial_query") (← integer? given "num_suggestions")
  | some .getQueryId => some getQueryId
  | some .reportSearchResults => (text? given "results_json").map reportSearchResults
  | some .submitFeedback => (text? given "feedback_json").map submitFeedback
  | some .getQueryData => (integer? given "query_id").map getQueryData
  | some .reportMetrics => do return reportMetrics (← text? given "component") (← text? given "metrics_json")
  | none => (port? given "proxy_port").map relay

/-- Reads a report that is given as JSON; `what` is its name in the fault. -/
def report {α : Type} (what : String) (read? : List UInt8 → Option α) (json : String) : Except Fault α :=
  match read? json.toUTF8.toList with
  | some r => .ok r
  | none => .error (.invalidArgument (what ++ " argument is not valid JSON: malformed"))

/-- The command that is sent to the service, if the action is one. -/
def command? : ToolAction → Except Fault (Option Command)
  | getAutofill partialQuery count => .ok (some (.getAutofill partialQuery count))
  | getQueryId => .ok (some .getQueryId)
  | reportSearchResults json => (report "results" SearchReport.read? json).map fun r => some (.reportSearchResults r)
  | submitFeedback json => (report "feedback" FeedbackReport.read? json).map fun r => some (.submitFeedback r)
  | getQueryData queryId => .ok (some (.getQueryData queryId))
  | reportMetrics component json =>
    (report "metrics" MetricsReport.read? json).map fun r => some (.reportMetrics component r)
  | relay _ => .ok none

end ToolAction

namespace ToolInvocation

open CommandLine

/-- The run that a command line asks for. -/
def read (words : List String) : Except Refusal ToolInvocation := do
  let arguments ← ToolAction.grammar.read words
  match arguments.command with
  | none => throw .missingCommand
  | some (command, given) =>
    match ToolAction.ofArguments? command given with
    | none => throw .missingOperand
    | some action =>
      return { ip := (ip? given "ip").or (ip? arguments.own "ip"),
               port := (port? given "port").or (port? arguments.own "port"), action }

/-- Where the service is: as the command line says, else as the settings say. -/
def service (i : ToolInvocation) (s : Settings) : SocketAddress :=
  .ofIp (i.ip.getD s.service.ip) (i.port.getD s.service.port)

end ToolInvocation
end SearchTelemetry
