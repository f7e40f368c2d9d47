import SearchTelemetry.Report
/-!
# Relay.Event — what a relay saw

An exchange that is passed on is told by two events, one when the request has been sent on in full and one when the
response has; a failure is told by one.  Events carry the head as text and the beginning of the body, never a whole body.
-/
namespace SearchTelemetry

open Json (Value Written)

/-! ## Time spans -/

/-- How long something took. -/
structure Elapsed where
  seconds : UInt64
  nanos : Fin 1000000000
deriving DecidableEq, Repr

namespace Elapsed

/-- Whole milliseconds. -/
def millis (d : Elapsed) : Nat :=
  d.seconds.toNat * 1000 + d.nanos.val / 1000000

/-- A time span as an object. -/
def toValue (d : Elapsed) : Value :=
  .object [("secs", .nat d.seconds.toNat), ("nanos", .nat d.nanos.val)]

/-- A time span in which nanoseconds may add up to seconds, if there are not too many seconds then. -/
def ofParts? (seconds nanos : Nat) : Option Elapsed :=
  let total := seconds + nanos / 1000000000
  if total < UInt64.size then some ⟨total.toUInt64, ⟨nanos % 1000000000, Nat.mod_lt _ (by decide)⟩⟩ else none

/-- Nothing but the fields of a time span is there. -/
def isExact : Written → Bool
  | .named fs => fs.all fun f => f.1 == "secs" || f.1 == "nanos"
  | .listed vs => vs.length ≤ 2

/-- A time span from a value. -/
def ofValue? (v : Value) : Option Elapsed := do
  let w ← Written.ofValue? v
  guard (isExact w)
  let seconds ← w.required? 0 "secs" (Value.unsigned? 64)
  let nanos ← w.required? 1 "nanos" (Value.unsigned? 32)
  ofParts? seconds nanos

end Elapsed

/-! ## Events -/

/-- What a relay tells of an exchange.  Identifiers are those of the connection and of the exchange on it, as `3-1`. -/
inductive RelayEvent where
  /-- A request was sent on in full. -/
  | request (id : String) (timestamp : Instant) (client method path head : String) (bodySize : UInt64)
      (bodyPreview : String)
  /-- The response was sent back in full. -/
  | response (requestId : String) (timestamp : Instant) (status : UInt16) (head : String) (bodySize : UInt64)
      (bodyPreview : String) (duration : Elapsed)
  /-- The exchange came to nothing, under this status if the relay answered itself. -/
  | failure (requestId : Option String) (timestamp : Instant) (message : String) (status : Option UInt16)
deriving DecidableEq, Repr

namespace RelayEvent

/-- The exchange that an event belongs to. -/
def exchangeId : RelayEvent → Option String
  | request id .. => some id
  | response id .. => some id
  | failure id .. => id

/-- The fields of an event, its kind in front. -/
def toFields : RelayEvent → Json.Fields
  | request id timestamp client method path head bodySize bodyPreview =>
    [("type", .string "Request"), ("id", .string id), ("timestamp", instantValue timestamp), ("client", .string client),
      ("method", .string method), ("path", .string path), ("head", .string head), ("body_size", .nat bodySize.toNat),
      ("body_preview", .string bodyPreview)]
  | response requestId timestamp status head bodySize bodyPreview duration =>
    [("type", .string "Response"), ("request_id", .string requestId), ("timestamp", instantValue timestamp),
      ("status", .nat status.toNat), ("head", .string head), ("body_size", .nat bodySize.toNat),
      ("body_preview", .string bodyPreview), ("duration", duration.toValue)]
  | failure requestId timestamp message status =>
    [("type", .string "Error"), ("request_id", .ofOption .string requestId), ("timestamp", instantValue timestamp),
      ("message", .string message), ("status", .ofOption (fun s => .nat s.toNat) status)]

/-- A request event from its fields. -/
def requestOf? (w : Written) : Option RelayEvent := do
  guard (w.fits 8)
  let id ← w.required? 0 "id" Value.string?
  let timestamp ← w.required? 1 "timestamp" instant?
  let client ← w.required? 2 "client" Value.string?
  let method ← w.required? 3 "method" Value.string?
  let path ← w.required? 4 "path" Value.string?
  let head ← w.required? 5 "head" Value.string?
  let bodySize ← w.required? 6 "body_size" (Value.unsigned? 64)
  let bodyPreview ← w.required? 7 "body_preview" Value.string?
  return request id timestamp client method path head bodySize.toUInt64 bodyPreview

/-- A response event from its fields. -/
def responseOf? (w : Written) : Option RelayEvent := do
  guard (w.fits 7)
  let requestId ← w.required? 0 "request_id" Value.string?
  let timestamp ← w.required? 1 "timestamp" instant?
  let status ← w.required? 2 "status" (Value.unsigned? 16)
  let head ← w.required? 3 "head" Value.string?
  let bodySize ← w.required? 4 "body_size" (Value.unsigned? 64)
  let bodyPreview ← w.required? 5 "body_preview" Value.string?
  let duration ← w.required? 6 "duration" Elapsed.ofValue?
  return response requestId timestamp status.toUInt16 head bodySize.toUInt64 bodyPreview duration

/-- A failure from its fields. -/
def failureOf? (w : Written) : Option RelayEvent := do
  guard (w.fits 4)
  let requestId ← w.nullable? 0 "request_id" Value.string?
  let timestamp ← w.required? 1 "timestamp" instant?
  let message ← w.required? 2 "message" Value.string?
  let status ← w.nullable? 3 "status" (Value.unsigned? 16)
  return failure requestId timestamp message (status.map Nat.toUInt16)

/-- An event from a record that tells its kind. -/
def ofWritten? (w : Written) : Option RelayEvent := do
  let (kind, w) ← w.tagged? "type"
  if kind = "Request" then requestOf? w
  else if kind = "Response" then responseOf? w
  else if kind = "Error" then failureOf? w
  else none

/-- An event out of bytes. -/
def read? (bs : List UInt8) : Option RelayEvent :=
  (Written.strict? bs).bind ofWritten?

end RelayEvent
end SearchTelemetry
