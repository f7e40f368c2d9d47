import SearchTelemetry.Http.Body
import SearchTelemetry.Http.Head
/-!
# Relay.Inlet — what has come in on a socket so far

The relay never holds a whole stream.  It holds what has arrived and is not yet consumed, and knows whether the sender has
closed its side; everything it decides, it decides on that.  A head or a body that is not whole yet is waited for: an inlet
that has not ended is a stream that has gone quiet.
-/
namespace SearchTelemetry
namespace Relay

open Http (Framing Passage ReadFault RequestHead ResponseHead Tap)

/-- What has arrived on a socket and is not consumed. -/
structure Inlet where
  unread : List UInt8
  /-- The sender has closed its side. -/
  ended : Bool
deriving DecidableEq, Repr

namespace Inlet

/-- Nothing has arrived yet. -/
def fresh : Inlet :=
  ⟨[], false⟩

/-- The inlet after more bytes; none come after the end. -/
def receive (bs : List UInt8) (i : Inlet) : Inlet :=
  if i.ended then i else { i with unread := i.unread ++ bs }

/-- The inlet after its end. -/
def close (i : Inlet) : Inlet :=
  { i with ended := true }

/-- There is nothing more to be had. -/
def isOver (i : Inlet) : Bool :=
  i.ended && i.unread.isEmpty

/-- The inlet as a stream. -/
def source (i : Inlet) : Http.Source :=
  ⟨i.unread, [], if i.ended then .closed else .quiet⟩

theorem bytes_source (i : Inlet) : i.source.bytes = i.unread := by
  simp [source, Http.Source.bytes]

end Inlet

/-- Whether a body that is being passed on is whole. -/
inductive Standing where
  /-- More of it is waited for. -/
  | waiting
  /-- It is whole, and these bytes stand behind it. -/
  | whole (rest : List UInt8)
  /-- It will never be whole. -/
  | failed (fault : ReadFault)
deriving DecidableEq, Repr

/-- A body as far as it has come. -/
structure Transfer where
  /-- What can be passed on. -/
  passed : List UInt8
  tap : Tap
  standing : Standing
deriving DecidableEq, Repr

namespace Transfer

/-- A body as far as it has come in an inlet that begins with it.  `previewBytes` of it are kept. -/
def ofInlet (previewBytes : Nat) (framing : Framing) (i : Inlet) : Transfer :=
  match Passage.relay none ⟨i.source, .ofRoom none, .ofLimit previewBytes⟩ framing with
  | .ok p => ⟨p.sink.written, p.tap, .whole p.source.bytes⟩
  | .error ⟨fault, p⟩ =>
    ⟨p.sink.written, p.tap,
      match fault with
      | .read (.quiet _) => .waiting
      | .read f => .failed f
      | .write => .waiting⟩

end Transfer
end Relay
end SearchTelemetry
