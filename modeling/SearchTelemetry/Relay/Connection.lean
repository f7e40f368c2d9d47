import SearchTelemetry.Gateway
import SearchTelemetry.Relay.Event
import SearchTelemetry.Relay.Inlet
import SearchTelemetry.Settings.Basic
import SearchTelemetry.Text.Preview
/-!
# Relay.Connection — one client connection

A connection is a machine.  What happens on its sockets and clocks goes in (`Happening`), and what the relay does comes out
(`Act`); a run is a list of happenings, in whatever order the world brings them about.

Exchanges follow one another.  Each has a backend connection of its own.  The request goes on it as it came, head and
body, as far as the backend takes it, and the response comes back the same way, interim heads first.  The relay writes bytes
of its own only where not one byte of a response has gone to the client: then it answers itself, and closes.

Between exchanges the connection is idle, and only there does a stop end it.  Whether a connection notices that its client
has sent something or has gone, before or after something else that also happened, is left to the world: it does when it
looks (`Happening.look`).  Writes to the client are taken to succeed.
-/
namespace SearchTelemetry
namespace Relay

open Http (ReadFault RequestHead ResponseHead)

/-! ## Types -/

/-- What a relay is told. -/
structure Context where
  /-- The service behind the relay. -/
  backend : String
  settings : RelaySettings
deriving DecidableEq, Repr

/-- When something happens: on the calendar, and in nanoseconds of a clock that never goes back. -/
structure Moment where
  wall : Instant
  ticks : Nat
deriving DecidableEq, Repr

/-- A request and what has come back for it. -/
structure Exchange where
  /-- Its number on the connection, from one. -/
  number : Nat
  request : RequestHead
  /-- The ticks at which it began. -/
  started : Nat
  backend : Inlet
deriving DecidableEq, Repr

/-- What a connection is doing. -/
inductive Phase where
  /-- It waits for the next exchange, or for a stop. -/
  | idle
  /-- It reads the head of a request. -/
  | reading
  /-- It connects to the backend, which will take so many bytes; `none` for any number. -/
  | connecting (x : Exchange) (room : Option Nat)
  /-- It passes the request on, of which so many bytes have gone, and the backend takes so many more. -/
  | sending (x : Exchange) (sent : Nat) (room : Option Nat)
  /-- It waits for the head of the response.  An interim head may have gone to the client. -/
  | awaiting (x : Exchange) (interim : Bool)
  /-- It passes the body of the response on, of which so many bytes have gone. -/
  | returning (x : Exchange) (response : ResponseHead) (sent : Nat)
  | closed
deriving DecidableEq, Repr

/-- A client connection. -/
structure Connection where
  /-- Its number on the relay, from one. -/
  number : Nat
  /-- The address of the client. -/
  peer : String
  client : Inlet
  /-- How many exchanges have begun. -/
  exchanges : Nat
  phase : Phase
deriving DecidableEq, Repr

/-- What happens to a connection. -/
inductive Happening where
  /-- Bytes from the client arrive. -/
  | received (bs : List UInt8)
  /-- The client has closed its side. -/
  | clientClosed
  /-- Nothing more can be read from the client. -/
  | clientBroken (reason : String)
  /-- The connection looks for its client. -/
  | look
  /-- The relay is to stop. -/
  | stop
  /-- The backend accepts the connection. -/
  | connected
  /-- The backend refuses the connection. -/
  | notConnected (reason : String)
  /-- The backend has not accepted the connection in time. -/
  | connectTimeout
  /-- The backend takes so many more bytes; `none` for any number. -/
  | backendTakes (room : Option Nat)
  /-- Bytes from the backend arrive. -/
  | replied (bs : List UInt8)
  /-- The backend has closed its side. -/
  | backendClosed
  /-- Nothing more can be written to the backend or read from it. -/
  | backendBroken (reason : String)
  /-- The time for the head of a response is up. -/
  | deadline
  /-- The sender of a body has been quiet for too long. -/
  | pause
deriving DecidableEq, Repr

/-- What the relay does. -/
inductive Act where
  /-- Open a backend connection for an exchange. -/
  | connect (exchange : Nat)
  | toBackend (exchange : Nat) (bs : List UInt8)
  | toClient (bs : List UInt8)
  | tell (e : RelayEvent)
  /-- Close both sides. -/
  | close
deriving DecidableEq, Repr

/-- A step of a connection: what it has become, and what the relay does. -/
abbrev Step := Connection × List Act

/-- A step with acts in front. -/
def Step.after (acts : List Act) (s : Step) : Step :=
  (s.1, acts ++ s.2)

namespace Moment

/-- The time from a tick to a moment. -/
def since (m : Moment) (start : Nat) : Elapsed :=
  let nanos := m.ticks - start
  ⟨UInt64.ofNat (nanos / 1000000000), ⟨nanos % 1000000000, Nat.mod_lt _ (by decide)⟩⟩

end Moment

namespace Connection

/-- A connection that has just been accepted. -/
def fresh (number : Nat) (peer : String) : Connection :=
  ⟨number, peer, .fresh, 0, .idle⟩

/-- The identifier of an exchange. -/
def exchangeId (k : Connection) (exchange : Nat) : String :=
  Numeral.text k.number ++ "-" ++ Numeral.text exchange

/-! ## Ends -/

/-- Closes the connection. -/
def finish (k : Connection) (acts : List Act) : Step :=
  ({ k with phase := .closed }, acts ++ [.close])

/-- Tells of a failure and closes the connection. -/
def fail (m : Moment) (k : Connection) (exchange : Option Nat) (message : String) : Step :=
  k.finish [.tell (.failure (exchange.map k.exchangeId) m.wall message none)]

/-- Answers the client instead of the backend, and closes the connection. -/
def answer (m : Moment) (k : Connection) (x : Exchange) (g : Gateway) : Step :=
  k.finish [.toClient g.answer,
    .tell (.failure (some (k.exchangeId x.number)) m.wall g.message (some g.status.toUInt16))]

/-- Gives an exchange up: with an answer if nothing of a response has gone to the client, else without. -/
def giveUp (m : Moment) (k : Connection) (x : Exchange) (interim : Bool) (g : Gateway) : Step :=
  if interim then k.fail m (some x.number) g.message else k.answer m x g

/-- Why a client that is gone leaves no exchange to finish. -/
def abort (m : Moment) (k : Connection) (x : Exchange) (reason : String) : Step :=
  k.fail m (some x.number) ("client aborted request: " ++ reason)

/-- Why a response breaks off. -/
def breakOff (m : Moment) (k : Connection) (x : Exchange) (reason : String) : Step :=
  k.fail m (some x.number) ("upstream failed mid-response: " ++ reason)

/-- Ends with a client that is not there any more, where the connection looks for it. -/
def leave (m : Moment) (k : Connection) : Step :=
  match k.phase with
  | .idle => k.finish []
  | .awaiting x _ => k.fail m (some x.number) "client closed before response"
  | .returning x _ _ => k.fail m (some x.number) "client closed mid-response"
  | _ => (k, [])

/-- The fault of a head that cannot be read to its end. -/
def unreadable (reason : String) : Fault :=
  .protocol ("read failed: " ++ reason)

/-- The gateway's account of a backend that does not answer in time. -/
def late (c : Context) : Gateway :=
  .timeout c.backend c.settings.exchangeTimeout

/-- The fault of a sender that has been quiet for too long. -/
def quietFor (c : Context) : ReadFault :=
  .quiet (some c.settings.idleTimeout)

/-- What a fault of a backend's response says of the backend. -/
def backendReason : Fault → String
  | .backendUnavailable reason | .protocol reason => reason
  | fault => fault.message

/-! ## The exchange -/

/-- Reads the head of the next request, as far as it has come. -/
def read (c : Context) (m : Moment) (k : Connection) : Step :=
  match RequestHead.read c.settings.maxHeadBytes k.client.source with
  | .message head rest =>
    let number := k.exchanges + 1
    ({ k with
        client := { k.client with unread := rest.bytes }
        exchanges := number
        phase := .connecting ⟨number, head, m.ticks, .fresh⟩ none }, [.connect number])
  | .closed => k.finish []
  | .quiet => ({ k with phase := .reading }, [])
  | .refused fault => k.fail m none fault.message

/-- The event of a request that has been sent on in full. -/
def requestEvent (c : Context) (m : Moment) (k : Connection) (x : Exchange) (tap : Http.Tap) : RelayEvent :=
  .request (k.exchangeId x.number) m.wall k.peer x.request.parts.method x.request.parts.path
    (Preview.head x.request.raw) tap.total.toUInt64
    (Preview.body tap.preview tap.total c.settings.previewBytes)

/-- The event of a response that has been sent back in full. -/
def responseEvent (c : Context) (m : Moment) (k : Connection) (x : Exchange) (response : ResponseHead)
    (tap : Http.Tap) : RelayEvent :=
  .response (k.exchangeId x.number) m.wall response.parts.status.toUInt16 (Preview.head response.raw)
    tap.total.toUInt64 (Preview.body tap.preview tap.total c.settings.previewBytes) (m.since x.started)

/-- Passes on what has come of the body of the response. -/
def passResponse (c : Context) (m : Moment) (k : Connection) (x : Exchange) (response : ResponseHead) (sent : Nat) :
    Step :=
  let t := Transfer.ofInlet c.settings.previewBytes response.framing x.backend
  Step.after [.toClient (t.passed.drop sent)]
    (match t.standing with
      | .waiting => ({ k with phase := .returning x response t.passed.length }, [])
      | .failed fault => k.breakOff m x fault.message
      | .whole _ =>
        let told := [Act.tell (k.responseEvent c m x response t.tap)]
        if x.request.wantsClose || response.wantsClose then k.finish told
        else ({ k with phase := .idle }, told))

/-- Reads the heads of the response, as far as they have come, and passes them on. -/
def await (c : Context) (m : Moment) (k : Connection) (x : Exchange) (interim : Bool) : Step :=
  match _ : ResponseHead.read c.settings.maxHeadBytes x.request.parts.method x.backend.source with
  | .message head rest =>
    let x' := { x with backend := { x.backend with unread := rest.bytes } }
    Step.after [.toClient head.raw]
      (if head.isInterim then await c m k x' true else k.passResponse c m x' head 0)
  | .refused fault => k.giveUp m x interim (.unreachable c.backend (backendReason fault))
  | .closed | .quiet => ({ k with phase := .awaiting x interim }, [])
termination_by x.backend.unread.length
decreasing_by
  have h := ResponseHead.size_read ‹_›
  rw [← Http.Source.length_bytes, ← Http.Source.length_bytes, Inlet.bytes_source] at h
  exact h

/-- As many of these bytes as there is room for. -/
def within (room : Option Nat) (bs : List UInt8) : List UInt8 :=
  match room with
  | none => bs
  | some n => bs.take n

/-- Passes on what has come of the request, head and body, as far as the backend takes it. -/
def passRequest (c : Context) (m : Moment) (k : Connection) (x : Exchange) (sent : Nat) (room : Option Nat) : Step :=
  let t := Transfer.ofInlet c.settings.previewBytes x.request.framing k.client
  let due := (x.request.raw ++ t.passed).drop sent
  let taken := within room due
  let waiting := { k with phase := .sending x (sent + taken.length) (room.map (· - taken.length)) }
  Step.after [.toBackend x.number taken]
    (if taken.length < due.length then (waiting, [])
    else
      match t.standing with
      | .waiting => (waiting, [])
      | .failed fault => k.abort m x fault.message
      | .whole rest =>
        Step.after [.tell (k.requestEvent c m x t.tap)]
          (await c m { k with client := { k.client with unread := rest } } x false))

/-! ## Steps -/

/-- Goes on with what has come from the client. -/
def onClient (c : Context) (m : Moment) (k : Connection) : Step :=
  match k.phase with
  | .reading => k.read c m
  | .sending x sent room => k.passRequest c m x sent room
  | _ => (k, [])

/-- Goes on with what has come from the backend.  It is read only while a response is waited for. -/
def onBackend (c : Context) (m : Moment) (change : Inlet → Inlet) (k : Connection) : Step :=
  match k.phase with
  | .awaiting x interim => k.await c m { x with backend := change x.backend } interim
  | .returning x response sent => k.passResponse c m { x with backend := change x.backend } response sent
  | _ => (k, [])

/-- Looks for the client: for something to read while idle, for its end while a response is waited for.  Bytes that have
come for the next exchange hide the end. -/
def look (c : Context) (m : Moment) (k : Connection) : Step :=
  if k.client.isOver then k.leave m
  else
    match k.phase with
    | .idle => if k.client.unread.isEmpty then (k, []) else k.read c m
    | _ => (k, [])

/-- Does without the client, from which nothing more can be read.  Bytes that have come are read first. -/
def loseClient (m : Moment) (reason : String) (k : Connection) : Step :=
  match k.phase with
  | .reading => k.fail m none (unreadable reason).message
  | .sending x .. => k.abort m x reason
  | _ => if k.client.unread.isEmpty then k.leave m else (k, [])

/-- Does without the backend, from which nothing more can be read and to which nothing more can be written. -/
def loseBackend (c : Context) (m : Moment) (reason : String) (k : Connection) : Step :=
  match k.phase with
  | .sending x .. => k.answer m x (.unreachable c.backend reason)
  | .awaiting x interim => k.giveUp m x interim (.unreachable c.backend (backendReason (unreadable reason)))
  | .returning x _ _ => k.breakOff m x reason
  | _ => (k, [])

/-- Goes on with more room at the backend, or less. -/
def onRoom (c : Context) (m : Moment) (room : Option Nat) (k : Connection) : Step :=
  match k.phase with
  | .connecting x _ => ({ k with phase := .connecting x room }, [])
  | .sending x sent _ => k.passRequest c m x sent room
  | _ => (k, [])

/-- What becomes of a connection when something happens to it. -/
def step (c : Context) (m : Moment) (k : Connection) : Happening → Step
  | .received bs => { k with client := k.client.receive bs }.onClient c m
  | .clientClosed => { k with client := k.client.close }.onClient c m
  | .clientBroken reason => k.loseClient m reason
  | .look => k.look c m
  | .stop =>
    match k.phase with
    | .idle => k.finish []
    | _ => (k, [])
  | .connected =>
    match k.phase with
    | .connecting x room => k.passRequest c m x 0 room
    | _ => (k, [])
  | .notConnected reason =>
    match k.phase with
    | .connecting x _ => k.answer m x (.unreachable c.backend reason)
    | _ => (k, [])
  | .connectTimeout =>
    match k.phase with
    | .connecting x _ =>
      k.answer m x (.unreachable c.backend
        ("connect timed out after " ++ Numeral.text c.settings.connectTimeout ++ "ms"))
    | _ => (k, [])
  | .backendTakes room => k.onRoom c m room
  | .replied bs => k.onBackend c m (·.receive bs)
  | .backendClosed => k.onBackend c m (·.close)
  | .backendBroken reason => k.loseBackend c m reason
  | .deadline =>
    match k.phase with
    | .sending x .. => k.answer m x (late c)
    | .awaiting x interim => k.giveUp m x interim (late c)
    | _ => (k, [])
  | .pause =>
    match k.phase with
    | .sending x .. => k.abort m x (quietFor c).message
    | .returning x _ _ => k.breakOff m x (quietFor c).message
    | _ => (k, [])

/-- What becomes of a connection in the course of happenings, and all that the relay does. -/
def run (c : Context) (k : Connection) : List (Moment × Happening) → Step
  | [] => (k, [])
  | (m, h) :: rest =>
    let (k', acts) := k.step c m h
    Step.after acts (run c k' rest)

/-! ## Laws -/

/-- A stop does nothing to a connection that is not idle. -/
theorem step_stop_of_not_idle (c : Context) (m : Moment) {k : Connection} (h : k.phase ≠ .idle) :
    k.step c m .stop = (k, []) := by
  unfold step
  dsimp only
  split
  · contradiction
  · rfl

/-- A connection that is closed does nothing more. -/
theorem step_of_closed (c : Context) (m : Moment) {k : Connection} (h : k.phase = .closed) (e : Happening) :
    (k.step c m e).1.phase = .closed ∧ (k.step c m e).2 = [] := by
  cases e <;> simp [step, onClient, onBackend, onRoom, look, leave, loseClient, loseBackend, h]

end Connection

/-! ## What acts come to -/

namespace Act

/-- The bytes that go to the client. -/
def clientBytes (acts : List Act) : List UInt8 :=
  acts.flatMap fun
    | toClient bs => bs
    | _ => []

/-- The bytes that go to the backend of an exchange. -/
def backendBytes (exchange : Nat) (acts : List Act) : List UInt8 :=
  acts.flatMap fun
    | toBackend n bs => if n = exchange then bs else []
    | _ => []

/-- The events that are told. -/
def events (acts : List Act) : List RelayEvent :=
  acts.filterMap fun
    | tell e => some e
    | _ => none

end Act
end Relay
end SearchTelemetry
