import SearchTelemetry.Relay.Connection
/-!
# Relay.Server — all connections of a relay

Connections share nothing but the relay's settings and the wish to stop.  They are numbered in the order in which they are
accepted.  Once the relay is to stop it accepts no more of them, and it has stopped when the last one has closed.
-/
namespace SearchTelemetry
namespace Relay

/-- A relay and its connections, the first accepted one first. -/
structure Server where
  /-- The relay is to stop. -/
  stopping : Bool
  connections : List Connection
deriving DecidableEq, Repr

/-- What happens to a relay. -/
inductive Occurrence where
  /-- A client connects. -/
  | accept (peer : String)
  /-- The relay is told to stop. -/
  | stop
  /-- Something happens to the connection of a number.  A stop reaches it only after it has reached the relay. -/
  | on (number : Nat) (h : Happening)
deriving DecidableEq, Repr

namespace Server

/-- A relay that has just begun to listen. -/
def fresh : Server :=
  ⟨false, []⟩

/-- Every connection is closed, and no more are accepted. -/
def hasStopped (s : Server) : Bool :=
  s.stopping && s.connections.all fun k => decide (k.phase = .closed)

/-- Whether something can happen to a connection at all. -/
def permits (s : Server) (h : Happening) : Bool :=
  s.stopping || decide (h ≠ .stop)

/-- Lets something happen to the connection of a number; what the relay does is marked with the number. -/
def onConnection (c : Context) (m : Moment) (s : Server) (number : Nat) (h : Happening) : Server × List (Nat × Act) :=
  match s.connections[number - 1]? with
  | none => (s, [])
  | some k =>
    if number = 0 ∨ !s.permits h then (s, [])
    else
      let (k', acts) := k.step c m h
      ({ s with connections := s.connections.set (number - 1) k' }, acts.map fun a => (number, a))

/-- What becomes of a relay when something happens to it. -/
def step (c : Context) (m : Moment) (s : Server) : Occurrence → Server × List (Nat × Act)
  | .accept peer =>
    if s.stopping then (s, [])
    else ({ s with connections := s.connections ++ [.fresh (s.connections.length + 1) peer] }, [])
  | .stop => ({ s with stopping := true }, [])
  | .on number h => s.onConnection c m number h

/-- What becomes of a relay in the course of occurrences, and all that it does. -/
def run (c : Context) (s : Server) : List (Moment × Occurrence) → Server × List (Nat × Act)
  | [] => (s, [])
  | (m, o) :: rest =>
    let (s', acts) := s.step c m o
    let (s'', more) := run c s' rest
    (s'', acts ++ more)

/-- A relay that is to stop accepts no connection. -/
theorem length_step_of_stopping (c : Context) (m : Moment) {s : Server} (h : s.stopping = true) (o : Occurrence) :
    (s.step c m o).1.connections.length = s.connections.length := by
  cases o with
  | accept => simp [step, h]
  | stop => rfl
  | on number e =>
    simp only [step, onConnection]
    split
    · rfl
    · split <;> simp

end Server
end Relay
end SearchTelemetry
