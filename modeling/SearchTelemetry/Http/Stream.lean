import SearchTelemetry.Http.Body
import SearchTelemetry.Http.Head
/-!
# Http.Stream — a stream as a sequence of messages

Messages are read one behind the other, head and body in turn, until the stream ends or a message is no good.  Each body
goes into a sink of its own.
-/
namespace SearchTelemetry
namespace Http

/-- How messages are read from a stream. -/
structure Limits where
  /-- A head has at most so many bytes. -/
  maxHead : Nat
  /-- So many bytes of each body are kept for a look. -/
  tap : Nat
  /-- The sink of each body takes so many bytes; `none` for any number. -/
  room : Option Nat
deriving DecidableEq, Repr

/-- A message that was read: its head, what was passed on of its body, and why not all of it was. -/
structure Delivery (α : Type) where
  head : α
  passage : Passage
  fault : Option RelayFault

/-- Why no more messages are read. -/
inductive StreamEnd where
  /-- The stream ends where a message might have begun. -/
  | closed
  /-- The stream goes quiet inside a head. -/
  | quiet
  /-- The next head is no good. -/
  | refused (fault : Fault)
  /-- The body of the last message was not passed on whole. -/
  | cutShort

/-- The requests of a stream, behind those in `acc`, which are in reverse. -/
def requestsLoop (limits : Limits) (acc : List (Delivery RequestHead)) (s : Source) :
    List (Delivery RequestHead) × StreamEnd :=
  match _ : RequestHead.read limits.maxHead s with
  | .closed => (acc.reverse, .closed)
  | .quiet => (acc.reverse, .quiet)
  | .refused fault => (acc.reverse, .refused fault)
  | .message head rest =>
    match _ : Passage.relay none ⟨rest, .ofRoom limits.room, .ofLimit limits.tap⟩ head.framing with
    | .ok p => requestsLoop limits (⟨head, p, none⟩ :: acc) p.source
    | .error e => ((⟨head, e.passage, some e.fault⟩ :: acc).reverse, .cutShort)
termination_by s.size
decreasing_by
  exact Nat.lt_of_le_of_lt (Passage.size_relay ‹_›) (RequestHead.size_read ‹_›)

/-- The requests of a stream, and why there are no more. -/
def requests (limits : Limits) (s : Source) : List (Delivery RequestHead) × StreamEnd :=
  requestsLoop limits [] s

/-- The method that the next response answers, and those that the responses after it answer. -/
def nextMethod : List String → String × List String
  | [] => ("GET", [])
  | m :: ms => (m, ms)

/-- The responses of a stream, behind those in `acc`, which are in reverse. -/
def responsesLoop (limits : Limits) (methods : List String) (acc : List (Delivery ResponseHead)) (s : Source) :
    List (Delivery ResponseHead) × StreamEnd :=
  match _ : ResponseHead.read limits.maxHead (nextMethod methods).1 s with
  | .closed => (acc.reverse, .closed)
  | .quiet => (acc.reverse, .quiet)
  | .refused fault => (acc.reverse, .refused fault)
  | .message head rest =>
    match _ : Passage.relay none ⟨rest, .ofRoom limits.room, .ofLimit limits.tap⟩ head.framing with
    | .ok p => responsesLoop limits (nextMethod methods).2 (⟨head, p, none⟩ :: acc) p.source
    | .error e => ((⟨head, e.passage, some e.fault⟩ :: acc).reverse, .cutShort)
termination_by s.size
decreasing_by
  exact Nat.lt_of_le_of_lt (Passage.size_relay ‹_›) (ResponseHead.size_read ‹_›)

/-- The responses of a stream to requests with these methods, and why there are no more.  Past the end of the list the
method is GET. -/
def responses (limits : Limits) (methods : List String) (s : Source) : List (Delivery ResponseHead) × StreamEnd :=
  responsesLoop limits methods [] s

end Http
end SearchTelemetry
