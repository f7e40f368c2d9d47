import SearchTelemetry.Fault
import SearchTelemetry.Text.Numeral
/-!
# Allocator — query identifiers, one after the other

One counter issues identifiers; each is one more than the one before.  A call may ask that its identifier be recorded
first: the recording runs while no other call can, and only if it succeeds is the identifier issued and the counter moved.
A recording that breaks off leaves the counter unusable for ever, since nobody can tell how far it came.
-/
namespace SearchTelemetry

/-- The handle of one search session. -/
abbrev QueryId := Int64

/-- The counter. -/
structure Allocator where
  /-- The identifier that the next successful call issues. -/
  next : QueryId
  /-- A recording broke off. -/
  broken : Bool
deriving DecidableEq, Repr

/-- What a recording comes to. -/
inductive Recording (σ : Type) where
  /-- The identifier is recorded, which leads to this state. -/
  | recorded (state : σ)
  /-- Nothing is recorded. -/
  | refused (fault : Fault)
  /-- The recording does not come to an end. -/
  | brokeOff

/-- What a call comes to. -/
inductive Issue (σ : Type) where
  /-- An identifier is issued; its recording led to this state. -/
  | issued (id : QueryId) (state : σ)
  /-- None is issued. -/
  | refused (fault : Fault)
  /-- The call does not come to an end. -/
  | brokeOff

namespace Allocator

/-- A counter that begins with an identifier. -/
def ofFirst (first : QueryId) : Allocator :=
  ⟨first, false⟩

/-- Where a counter begins if nothing else is said. -/
def defaultFirst : QueryId := 1

/-- Why a counter is of no use any more. -/
def brokenFault : Fault :=
  .allocatorUnavailable "counter lock poisoned: poisoned lock: another task failed inside"

/-- Why no identifier is left. -/
def exhaustedFault : Fault :=
  .allocatorUnavailable "query ID space exhausted"

/-- Why an identifier is not issued. -/
def unrecordedFault (id : QueryId) (fault : Fault) : Fault :=
  .allocatorUnavailable ("could not record query ID " ++ Numeral.intText id.toInt ++ ": " ++ fault.message)

/-- One call: the counter after it and what it comes to. -/
def allocateWith {σ : Type} (a : Allocator) (record : QueryId → Recording σ) : Allocator × Issue σ :=
  if a.broken then (a, .refused brokenFault)
  else if a.next = Int64.maxValue then (a, .refused exhaustedFault)
  else
    match record a.next with
    | .recorded state => ({ a with next := a.next + 1 }, .issued a.next state)
    | .refused fault => (a, .refused (unrecordedFault a.next fault))
    | .brokeOff => ({ a with broken := true }, .brokeOff)

/-- A call that has nothing recorded. -/
def allocate (a : Allocator) : Allocator × Issue Unit :=
  a.allocateWith fun _ => .recorded ()

/-- What the next successful call will issue. -/
def peek (a : Allocator) : Except Fault QueryId :=
  if a.broken then .error brokenFault else .ok a.next

/-- Calls in the order in which they hold the counter: the counter after them and what each comes to. -/
def run {σ : Type} : Allocator → List (QueryId → Recording σ) → Allocator × List (Issue σ)
  | a, [] => (a, [])
  | a, record :: calls =>
    let (a, issue) := a.allocateWith record
    let (a, issues) := run a calls
    (a, issue :: issues)

end Allocator
end SearchTelemetry
