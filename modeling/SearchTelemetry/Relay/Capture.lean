import SearchTelemetry.Relay.Event
/-!
# Relay.Capture — events for a reader and for a file

Every event is shown as text, and with a file it is also added there as a line of its own, so that a session can be
looked at again.  A file that cannot be written to is no reason to stop.
-/
namespace SearchTelemetry

/-- Where events are captured: what has been shown to a reader, if they are to be shown, and the bytes of a file, if there is
one. -/
structure Capture where
  shows : Bool
  shown : List String
  file : Option (List UInt8)
deriving DecidableEq, Repr

namespace Capture

/-- An event as text. -/
def render : RelayEvent → String
  | .request id _ client _ _ head _ bodyPreview =>
    "==> [" ++ id ++ "] request from " ++ client ++ "\n" ++ head ++ "\n\n" ++ bodyPreview
  | .response requestId _ _ head _ bodyPreview duration =>
    "<== [" ++ requestId ++ "] response after " ++ Numeral.text duration.millis ++ "ms\n" ++ head ++ "\n\n"
      ++ bodyPreview
  | .failure requestId _ message status =>
    "!!! [" ++ requestId.getD "-" ++ "] " ++ message ++
      match status with
      | some code => " (answered " ++ Numeral.text code.toNat ++ ")"
      | none => ""

/-- The line of an event. -/
def line (e : RelayEvent) : List UInt8 :=
  (Json.Value.object e.toFields).bytes ++ [0x0A]

/-- What comes of writing a line. -/
inductive Writing where
  | whole
  /-- Writing has failed, with so many bytes of the line in the file. -/
  | failed (taken : Nat)
deriving DecidableEq, Repr

/-- What there is of a line in the file. -/
def Writing.part (line : List UInt8) : Writing → List UInt8
  | whole => line
  | failed taken => line.take taken

/-- The capture of one event more. -/
def step (c : Capture) (e : RelayEvent) (w : Writing) : Capture :=
  { c with
    shown := if c.shows then c.shown ++ [render e] else c.shown
    file := c.file.map (· ++ w.part (line e)) }

/-- The capture of one event after the other until there will be no more. -/
def run : Capture → List (RelayEvent × Writing) → Capture
  | c, [] => c
  | c, (e, w) :: es => run (c.step e w) es

/-- The bytes of a file after events were added to it, with nothing that failed. -/
def append (file : List UInt8) (events : List RelayEvent) : List UInt8 :=
  (run ⟨false, [], some file⟩ (events.map (·, .whole))).file.getD []

end Capture
end SearchTelemetry
