/-!
# Fault — why a request fails

Every fault has one HTTP status and one message.  A message names the kind of fault in front of what was wrong.
-/
namespace SearchTelemetry

/-- Why a request fails. -/
inductive Fault where
  /-- The caller's input is malformed or out of range. -/
  | invalidArgument (text : String)
  /-- What the caller names is not known. -/
  | notFound (text : String)
  /-- No query identifier can be issued. -/
  | allocatorUnavailable (text : String)
  /-- The service behind the relay cannot be reached. -/
  | backendUnavailable (text : String)
  /-- The journal refused a write; nothing was recorded. -/
  | storage (text : String)
  /-- The framing of a message is malformed. -/
  | protocol (text : String)
  /-- The endpoint is there, but not for this method. -/
  | methodNotAllowed (endpoint method : String)
deriving DecidableEq, Repr

namespace Fault

/-- The status under which a client hears of the fault. -/
def status : Fault → Nat
  | invalidArgument _ | protocol _ => 400
  | notFound _ => 404
  | allocatorUnavailable _ => 503
  | backendUnavailable _ => 502
  | storage _ => 500
  | methodNotAllowed .. => 405

/-- What a client reads of the fault. -/
def message : Fault → String
  | invalidArgument text => "invalid argument: " ++ text
  | notFound text => "not found: " ++ text
  | allocatorUnavailable text => "query ID allocator unavailable: " ++ text
  | backendUnavailable text => "upstream unavailable: " ++ text
  | storage text => "storage failure: " ++ text
  | protocol text => "protocol error: " ++ text
  | methodNotAllowed endpoint method => endpoint ++ " does not accept " ++ method

/-- Every fault is an error of the client or of the server. -/
theorem status_ge (f : Fault) : 400 ≤ f.status := by
  cases f <;> simp [status]

end Fault
end SearchTelemetry
