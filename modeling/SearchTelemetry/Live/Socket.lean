import Std.Async.Select
import Std.Async.Signal
import Std.Async.TCP
import Std.Async.Timer
import Std.Sync.CancellationToken
import Std.Time.DateTime.Timestamp
import SearchTelemetry.Instant.Basic
import SearchTelemetry.Net.SocketAddress
/-!
# Live.Socket — sockets and clocks

What the machines of this library are fed with: bytes as they arrive, the end of a stream, time that is up, the wish to
stop.  A thread that waits for something to happen on a socket gives up after a while, so that it can look at its clock.
-/
namespace SearchTelemetry
namespace Live

open Std.Async
open TCP.Socket (Client Server)

/-! ## Clocks -/

/-- The instant on the calendar. -/
def now : IO Instant := do
  let nanos := (← Std.Time.Timestamp.now).toNanosecondsSinceUnixEpoch.val
  return ⟨nanos / 1000000000, (nanos % 1000000000).toNat⟩

/-- Milliseconds in nanoseconds. -/
def ofMillis (n : Nat) : Nat :=
  n * 1000000

/-- A wait of at most so many milliseconds, for which a timer is made. -/
def wait (millis : Nat) : Async (Selector Unit) :=
  Selector.sleep (Std.Time.Millisecond.Offset.ofNat millis)

/-! ## Addresses -/

/-- The address as sockets take it. -/
def netAddress : SocketAddress → Std.Net.SocketAddress
  | .v4 x port => .v4 ⟨.ofParts x.a x.b x.c x.d, port⟩
  | .v6 x _ port => .v6 ⟨⟨⟨x.groups.toArray, by simp [x.length_groups]⟩⟩, port⟩

/-- The address that a socket gives. -/
def ofNetAddress : Std.Net.SocketAddress → SocketAddress
  | .v4 x => .v4 ⟨x.addr.octets[0], x.addr.octets[1], x.addr.octets[2], x.addr.octets[3]⟩ x.port
  | .v6 x => .v6 ⟨x.addr.segments.toList, by simp⟩ 0 x.port

/-! ## Failures -/

/-- The code of a failure and the words for it, if the system has any. -/
def codeAndWords : IO.Error → Option (UInt32 × String)
  | .alreadyExists _ c s | .otherError c s | .resourceBusy c s | .resourceVanished c s | .unsupportedOperation c s
  | .hardwareFault c s | .unsatisfiedConstraints c s | .illegalOperation c s | .protocolError c s | .timeExpired c s
  | .interrupted _ c s | .noFileOrDirectory _ c s | .invalidArgument _ c s | .permissionDenied _ c s
  | .resourceExhausted _ c s | .inappropriateType _ c s | .noSuchThing _ c s => some (c, s)
  | .unexpectedEof | .userError _ => none

/-- What is said of a failure of the system.  Some codes come negated. -/
def reason (e : IO.Error) : String :=
  match codeAndWords e with
  | some (code, words) =>
    let code := if code < 0x80000000 then code else -code
    words.capitalize ++ " (os error " ++ Numeral.text code.toNat ++ ")"
  | none => e.toString

/-! ## Sockets -/

/-- How many bytes are taken from a socket at once. -/
def pieceSize : UInt64 := 65536

/-- How many milliseconds a thread waits before it looks around. -/
def patience : Nat := 100

/-- Listens on an address. -/
def listen (address : SocketAddress) (backlog : UInt32) : IO Server := do
  let server ← Server.mk
  server.bind (netAddress address)
  server.listen backlog
  return server

/-- What has come on a socket. -/
inductive Incident where
  | bytes (bs : List UInt8)
  | ended
  | nothing

/-- What a socket has given. -/
def Incident.ofReceived : Option ByteArray → Incident
  | some bs => bytes bs.toList
  | none => ended

/-- Waits for something to come on one of several sockets, for so many milliseconds.  A socket that fails has ended. -/
def firstIncident (sockets : List (Nat × Client)) (millis : Nat) : IO (Nat × Incident) := do
  try
    Async.block do
      let timer ← wait millis
      let onSockets := sockets.map fun (name, socket) =>
        Selectable.case (socket.recvSelector pieceSize) fun r => return (name, Incident.ofReceived r)
      Selectable.one (Selectable.case timer (fun _ => return (0, .nothing)) :: onSockets).toArray
  catch _ =>
    return ((sockets.head?.map (·.1)).getD 0, .ended)

/-- Sends bytes; what went wrong, if something did. -/
def send (socket : Client) (bs : List UInt8) : IO (Option IO.Error) := do
  if bs.isEmpty then return none
  try
    Async.block (socket.send ⟨bs.toArray⟩)
    return none
  catch e => return some e

/-- Closes this side of a socket, which may be gone already. -/
def hangUp (socket : Client) : IO Unit := do
  try Async.block socket.shutdown catch _ => return

/-- Connects to an address; none if that takes more than so many milliseconds. -/
def connect? (address : SocketAddress) (millis : Nat) : IO (Option (Except IO.Error Client)) := do
  let socket ← Client.mk
  let task ← IO.asTask (Async.block (socket.connect (netAddress address))) .dedicated
  let start ← IO.monoMsNow
  let mut result := none
  while result.isNone && (← IO.monoMsNow) - start ≤ millis do
    if ← IO.hasFinished task then result := some (task.get.map fun _ => socket)
    else IO.sleep 1
  return result

/-! ## Programs that listen -/

/-- A program that accepts connections until it is interrupted. -/
structure Listener where
  server : Server
  /-- Interrupts of the program, which would end it if nobody waited for them. -/
  interrupts : Signal.Waiter
  /-- The program is to stop. -/
  stopping : Std.CancellationToken

/-- A listener on an address, which stops at an interrupt of the program. -/
def Listener.onAddress (address : SocketAddress) (backlog : UInt32) : IO Listener := do
  let server ← listen address backlog
  let stopping ← Std.CancellationToken.new
  let interrupts ← Signal.Waiter.mk .sigint false
  let _ ← IO.mapTask (fun _ => stopping.cancel) (← interrupts.wait)
  return ⟨server, interrupts, stopping⟩

/-- What a listener waits for. -/
inductive Arrival where
  | client (socket : Client)
  | stop
  | failure

/-- Waits for the next connection, or for the program to stop. -/
def Listener.next (l : Listener) : IO Arrival := do
  try
    Async.block <| Selectable.one
      #[.case l.stopping.selector (fun _ => return .stop),
        .case l.server.acceptSelector (fun socket => return .client socket)]
  catch _ =>
    return .failure

/-- Accepts connections, each of which gets a thread and a number from one on.  When the program is to stop, it waits for
the threads. -/
partial def Listener.run (l : Listener) (onClient : Nat → Client → IO Unit) : IO Unit :=
  go 1 #[]
where
  go (number : Nat) (threads : Array (Task (Except IO.Error Unit))) : IO Unit := do
    match ← l.next with
    | .stop =>
      for t in threads do
        let _ ← IO.wait t
    | .failure =>
      IO.sleep 50
      go number threads
    | .client socket =>
      let threads ← threads.filterM fun t => return !(← IO.hasFinished t)
      go (number + 1) (threads.push (← IO.asTask (onClient number socket) .dedicated))

end Live
end SearchTelemetry
