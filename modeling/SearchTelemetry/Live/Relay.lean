import Std.Sync.Mutex
import SearchTelemetry.Live.Files
import SearchTelemetry.Relay.Capture
import SearchTelemetry.Relay.Connection
/-!
# Live.Relay — the relay as a program

Each connection is a machine with a thread that tells it what happens and does what it says.  What can happen depends on
the phase: between exchanges something of the client or a stop, during an exchange also something of the backend, and time
that is up.
-/
namespace SearchTelemetry
namespace Live

open Std.Async.TCP.Socket (Client)
open Relay (Act Connection Exchange Happening Moment)

/-! ## Events -/

/-- Where events are told: one at a time, and perhaps to a file, too. -/
structure Audience where
  file : Std.Mutex (Option IO.FS.Handle)

namespace Audience

/-- An audience with a file, which is made if it is not there. -/
def withFile (path : Option String) : IO Audience := do
  return ⟨← Std.Mutex.new (← path.mapM openToAdd)⟩

/-- Tells an event.  A file that cannot be written to is no reason to stop. -/
def tell (a : Audience) (e : RelayEvent) : IO Unit := do
  a.file.atomically do
    IO.println (Capture.render e)
    (← IO.getStdout).flush
    match ← get with
    | none => return
    | some h =>
      try
        h.write ⟨(Capture.line e).toArray⟩
        h.flush
      catch _ => return

end Audience

/-! ## Connections -/

/-- What a connection has to do with. -/
structure Place where
  listener : Listener
  context : Relay.Context
  backendAddress : SocketAddress
  audience : Audience

/-- The sockets of a connection, and when something of a body last came. -/
structure Ends where
  client : Client
  backend : Option Client
  lastPiece : Nat

namespace Place

/-- The moment. -/
def moment : IO Moment := do
  return ⟨← now, ← IO.monoNanosNow⟩

/-- Does what the relay says; what went wrong with the backend, if something did. -/
def perform (p : Place) (ends : Ends) : List Act → IO (Option String)
  | [] => return none
  | act :: acts => do
    let broken ←
      match act with
      | .connect _ => pure none
      | .toBackend _ bs =>
        match ends.backend with
        | some socket => pure ((← send socket bs).map reason)
        | none => pure none
      | .toClient bs =>
        let _ ← send ends.client bs
        pure none
      | .tell e =>
        p.audience.tell e
        pure none
      | .close =>
        hangUp ends.client
        ends.backend.forM hangUp
        pure none
    match broken with
    | some why => return some why
    | none => p.perform ends acts

/-- What a connection is told of what came from its client. -/
def fromClient : Incident → Option Happening
  | .bytes bs => some (.received bs)
  | .ended => some .clientClosed
  | .nothing => none

/-- What a connection is told of what came from the backend. -/
def fromBackend : Incident → Option Happening
  | .bytes bs => some (.replied bs)
  | .ended => some .backendClosed
  | .nothing => none

/-- Whether so many milliseconds have passed since a tick. -/
def isUp (m : Moment) (start millis : Nat) : Bool :=
  start + ofMillis millis ≤ m.ticks

/-- Waits for something from the client. -/
def awaitClient (ends : Ends) : IO (Option Happening) := do
  return fromClient (← firstIncident [(0, ends.client)] patience).2

/-- Waits for something from the backend, and from the client as long as nothing of it is unread. -/
def awaitBoth (k : Connection) (ends : Ends) : IO (Option Happening) := do
  if k.client.isOver then return some .look
  let client := if k.client.unread.isEmpty then [(0, ends.client)] else []
  let backend := ends.backend.toList.map fun socket => (1, socket)
  let (name, incident) ← firstIncident (backend ++ client) patience
  return if name = 0 then fromClient incident else fromBackend incident

/-- Waits for the next thing that happens to a connection, but not for long. -/
def next (p : Place) (k : Connection) (ends : Ends) : IO (Option Happening × Ends) := do
  let m ← moment
  let limits := p.context.settings
  let late (x : Exchange) : Bool := isUp m x.started limits.exchangeTimeout
  let quiet : Bool := isUp m ends.lastPiece limits.idleTimeout
  match k.phase with
  | .closed => return (none, ends)
  | .idle =>
    ends.backend.forM hangUp
    let ends := { ends with backend := none }
    if !k.client.unread.isEmpty || k.client.ended then return (some .look, ends)
    match ← awaitClient ends with
    | some h => return (some h, ends)
    | none => return (if ← p.listener.stopping.isCancelled then some .stop else none, ends)
  | .reading => return (← awaitClient ends, ends)
  | .connecting .. =>
    match ← connect? p.backendAddress limits.connectTimeout with
    | none => return (some .connectTimeout, ends)
    | some (.error e) => return (some (.notConnected (reason e)), ends)
    | some (.ok socket) => return (some .connected, { ends with backend := some socket, lastPiece := m.ticks })
  | .sending x .. =>
    if late x then return (some .deadline, ends)
    if quiet then return (some .pause, ends)
    return (← awaitClient ends, ends)
  | .awaiting x _ =>
    if late x then return (some .deadline, ends)
    return (← awaitBoth k ends, ends)
  | .returning .. =>
    if quiet then return (some .pause, ends)
    return (← awaitBoth k ends, ends)

/-- Lets something happen to a connection.  A backend that does not take what it should has had no room for it. -/
def happen (p : Place) (ends : Ends) (k : Connection) (h : Happening) : IO Connection := do
  let m ← moment
  let (k', acts) := k.step p.context m h
  match ← p.perform ends acts with
  | none => return k'
  | some why =>
    let (waiting, _) := k.run p.context [(m, .backendTakes (some 0)), (m, h)]
    let (k', acts) := waiting.step p.context m (.backendBroken why)
    let _ ← p.perform ends acts
    return k'

/-- Goes on with a connection until it is closed. -/
partial def drive (p : Place) (k : Connection) (ends : Ends) : IO Unit := do
  if k.phase = .closed then return
  match ← p.next k ends with
  | (none, ends) => p.drive k ends
  | (some h, ends) => p.drive (← p.happen ends k h) { ends with lastPiece := ← IO.monoNanosNow }

/-- Relays on a connection that has just been accepted. -/
def relay (p : Place) (number : Nat) (client : Client) : IO Unit := do
  let peer := ofNetAddress (← client.getPeerName)
  p.drive (.fresh number peer.text) ⟨client, none, ← IO.monoNanosNow⟩

end Place

/-- Relays from a port to a service until the program is interrupted. -/
def runRelay (port : UInt16) (service : SocketAddress) (settings : Settings) : IO (Option Causes) := do
  let address := SocketAddress.ofIp settings.relay.listenIp port
  let audience? ←
    try pure (Except.ok (← Audience.withFile settings.relay.captureFile))
    catch e => pure (.error e)
  match audience? with
  | .error e =>
    return some (.within ("Failed to open capture file " ++ settings.relay.captureFile.getD "") (.plain (reason e)))
  | .ok audience =>
    IO.println ("Relaying " ++ address.text ++ " -> " ++ service.text ++ " (Ctrl-C to stop)")
    (← IO.getStdout).flush
    let listener? ←
      try pure (Except.ok (← Listener.onAddress address 1024))
      catch e => pure (.error e)
    match listener? with
    | .error e => return some (.within ("Failed to bind proxy to " ++ address.text) (.plain (reason e)))
    | .ok listener =>
      let place : Place := ⟨listener, ⟨service.text, settings.relay⟩, service, audience⟩
      listener.run place.relay
      return none

end Live
end SearchTelemetry
