import SearchTelemetry.Relay.Server
/-!
# Relay.Serving — the loop that accepts connections and waits for them

Each connection that is accepted has a task of its own.  A task that has come to its end is joined, while connections are
still accepted or later.  Once the relay is to stop, the loop waits until all tasks are joined, and returns.
-/
namespace SearchTelemetry
namespace Relay

/-- A relay, and the loop that serves it. -/
structure Serving where
  server : Server
  /-- The numbers of the connections whose tasks have not been joined. -/
  tasks : List Nat
  /-- The loop has returned. -/
  returned : Bool
deriving DecidableEq, Repr

/-- What comes next. -/
inductive Turn where
  /-- Something happens to the relay. -/
  | happens (o : Occurrence)
  /-- The task of the connection of a number is joined. -/
  | join (number : Nat)
  /-- The loop returns. -/
  | finish
deriving DecidableEq, Repr

/-- The connection of a number has come to its end. -/
def Server.hasClosed (s : Server) (number : Nat) : Bool :=
  number != 0 && s.connections[number - 1]?.any fun k => decide (k.phase = .closed)

namespace Serving

/-- A loop that has just begun. -/
def fresh : Serving :=
  ⟨.fresh, [], false⟩

/-- What becomes of a relay and its loop.  Only a task that has come to its end is joined, and the loop returns only when it is
to stop and no task is left. -/
def step (c : Context) (m : Moment) (s : Serving) : Turn → Serving × List (Nat × Act)
  | .happens o =>
    let r := s.server.step c m o
    let number := s.server.connections.length
    ({ s with server := r.1, tasks := s.tasks ++ List.range' (number + 1) (r.1.connections.length - number) }, r.2)
  | .join number => (if s.server.hasClosed number then { s with tasks := s.tasks.erase number } else s, [])
  | .finish => (if s.server.stopping && s.tasks.isEmpty then { s with returned := true } else s, [])

/-- What becomes of a relay and its loop in the course of turns, and all that the relay does. -/
def run (c : Context) (s : Serving) : List (Moment × Turn) → Serving × List (Nat × Act)
  | [] => (s, [])
  | (m, t) :: ts =>
    let r := s.step c m t
    let rest := run c r.1 ts
    (rest.1, r.2 ++ rest.2)

end Serving
end Relay
end SearchTelemetry
