import SearchTelemetry.Http.Content
import SearchTelemetry.Http.Head
import SearchTelemetry.Http.Wire
/-!
# Program.Serve — the service on a connection

A connection brings requests one behind the other, each of which is answered once it is whole, in the order in which they
come.  The connection ends when the client asks for it, when it closes its side, or after a request that cannot be read.
What accepted reports add to the journal is left with the service until it is in a file.
-/
namespace SearchTelemetry

open Http (Body RequestHead Source Wire.answer Wire.refusal)

/-- What the requests on a connection come to. -/
structure Served where
  service : Service
  /-- The answers, to be written in this order. -/
  written : List UInt8
  /-- What has come of the next request; none if the connection ends. -/
  unread : Option (List UInt8)

namespace Served

/-- The longest head of a request. -/
def maxHead : Nat := 417792

/-- The request that a head and its body make. -/
def incoming (head : RequestHead) (body : List UInt8) : Incoming :=
  { method := head.parts.method
    target := head.parts.path
    headers := head.parts.headers.map fun h => (h.1, Utf8.bytes h.2)
    body }

/-- The status of an answer to a request whose head is refused. -/
def refusalStatus (fault : Fault) : Nat :=
  if fault = Http.headTooLong maxHead then 431 else 400

/-- Answers the requests that have come whole; `written` are the answers before them. -/
def answerAll (now : Instant) (service : Service) (written : List UInt8) (s : Source) : Served :=
  match _ : RequestHead.read maxHead s with
  | .closed => ⟨service, written, none⟩
  | .quiet => ⟨service, written, some s.bytes⟩
  | .refused fault => ⟨service, written ++ Wire.refusal now (refusalStatus fault), none⟩
  | .message head rest =>
    match _ : Body.read head.framing rest with
    | .waiting => ⟨service, written, some s.bytes⟩
    | .broken _ => ⟨service, written ++ Wire.refusal now 400, none⟩
    | .whole content behind =>
      let (service, a) := service.handle now (incoming head content)
      let close := head.wantsClose
      let written := written ++ Wire.answer now head.parts.method head.parts.minor close a
      if close then ⟨service, written, none⟩ else answerAll now service written behind
termination_by s.size
decreasing_by exact Nat.lt_of_le_of_lt (Body.size_read ‹_›) (RequestHead.size_read ‹_›)

/-- Answers the requests that have come whole on a connection. -/
def ofSource (now : Instant) (service : Service) (s : Source) : Served :=
  answerAll now service [] s

end Served

/-! ## The journal's file

A service that answers for long holds of its journal only what is in no file yet. -/

namespace Service

/-- What of the journal is in no file yet. -/
def unsaved (s : Service) : List UInt8 :=
  (s.store.journal.map (·.bytes)).getD []

/-- The service with another journal, if it has one. -/
def withJournal (s : Service) (change : Journal → Journal) : Service :=
  { s with store := { s.store with journal := s.store.journal.map change } }

/-- The service once its whole journal is in a file. -/
def saved (s : Service) : Service :=
  s.withJournal fun j => { j with bytes := [] }

/-- The service when the device takes no more. -/
def onFullDevice (s : Service) : Service :=
  s.withJournal fun j => { j with room := some 0 }

/-- The service when the device takes any number of bytes. -/
def onEmptyDevice (s : Service) : Service :=
  s.withJournal fun j => { j with room := none }

end Service
end SearchTelemetry
