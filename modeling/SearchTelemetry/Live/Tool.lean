import SearchTelemetry.Http.Arrival
import SearchTelemetry.Http.Wire
import SearchTelemetry.Live.Relay
import SearchTelemetry.Live.Service
import SearchTelemetry.Program.Send
/-!
# Live.Tool — the tool as a program

The tool sends its request on a connection of its own and reads until the response is whole, which it does not wait for
longer than half a minute.
-/
namespace SearchTelemetry
namespace Live

open Std.Async.TCP.Socket (Client)

/-- How many milliseconds the tool waits for a response. -/
def responseTimeout : Nat := 30000

/-- Reads the response to a request with this method, up to a time in milliseconds. -/
partial def receive (socket : Client) (method : String) (deadline : Nat) (got : List UInt8) : IO Http.Arrival := do
  if deadline ≤ (← IO.monoMsNow) then return .refused
  match ← firstIncident [(0, socket)] patience with
  | (_, .nothing) => receive socket method deadline got
  | (_, .ended) => return Http.Arrival.read method ⟨got, [], .closed⟩
  | (_, .bytes bs) =>
    match Http.Arrival.read method ⟨got ++ bs, [], .quiet⟩ with
    | .waiting => receive socket method deadline (got ++ bs)
    | arrival => return arrival

/-- Sends a request and waits for its response. -/
def exchange (service : SocketAddress) (r : Request) : IO Outcome := do
  let deadline := (← IO.monoMsNow) + responseTimeout
  match ← connect? service responseTimeout with
  | none | some (.error _) => return Sending.notReached service r
  | some (.ok socket) =>
    match ← send socket (Http.Wire.request service r) with
    | some _ => return Sending.notReached service r
    | none =>
      let arrival ← receive socket r.method deadline []
      hangUp socket
      return match arrival with
        | .whole response => Sending.answered response
        | .brokenOff => Sending.brokenOff service
        | .refused | .waiting => Sending.notReached service r

/-- The tool on a command line. -/
def runTool (words : List String) : IO UInt32 := do
  let path ← settingsPath
  match Sending.ofWords path words (← environment) (← readFile? path) with
  | .ended outcome => finish outcome
  | .request service r => finish (← exchange service r)
  | .relay port service settings =>
    match ← runRelay port service settings with
    | none => return 0
    | some causes => finish (.failed causes.line)

end Live
end SearchTelemetry
