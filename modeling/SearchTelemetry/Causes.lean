/-!
# Causes — why a program gives up

A failure while a program starts has an outermost message and causes behind it, the innermost last.  On one line they are
joined by a colon; where a program ends with them, the causes stand below the message.
-/
namespace SearchTelemetry

/-- A message and the causes behind it, the innermost last. -/
structure Causes where
  message : String
  behind : List String
deriving DecidableEq, Repr

namespace Causes

/-- A message with nothing behind it. -/
def plain (message : String) : Causes :=
  ⟨message, []⟩

/-- The failure as the cause of another one. -/
def within (message : String) (c : Causes) : Causes :=
  ⟨message, c.message :: c.behind⟩

/-- The message and its causes on one line. -/
def line (c : Causes) : String :=
  ": ".intercalate (c.message :: c.behind)

/-- Causes with their numbers, from `n` on, a line each. -/
def numbered : Nat → List String → String
  | _, [] => ""
  | n, c :: cs => "    " ++ toString n ++ ": " ++ c ++ "\n" ++ numbered (n + 1) cs

/-- What a program says at its end: the message, and its causes below it.  A single cause has no number. -/
def report (c : Causes) : String :=
  "Error: " ++ c.message ++ "\n" ++
    match c.behind with
    | [] => ""
    | [one] => "\nCaused by:\n    " ++ one ++ "\n"
    | many => "\nCaused by:\n" ++ numbered 0 many

end Causes
end SearchTelemetry
