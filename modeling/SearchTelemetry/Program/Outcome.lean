import SearchTelemetry.Causes
import SearchTelemetry.CommandLine.Grammar
/-!
# Program.Outcome — how a program ends

A program ends with a code, and with what it has written to its output and, beside that, of errors.  The code is 0 if it
did what was asked, 1 if that failed, and 2 if the command line asked for nothing that it does.
-/
namespace SearchTelemetry

/-- How a program ends. -/
structure Outcome where
  code : Nat
  output : String
  errors : String
deriving DecidableEq, Repr

namespace Outcome

/-- The version of the programs. -/
def version : String := "0.1.0"

/-- The program did what was asked. -/
def done (output : String) : Outcome :=
  ⟨0, output, ""⟩

/-- The program failed, and says why on one line. -/
def failed (message : String) : Outcome :=
  ⟨1, "", "Error: " ++ message ++ "\n"⟩

/-- The program failed before it began, and says why with all causes. -/
def notStarted (c : Causes) : Outcome :=
  ⟨1, "", c.report⟩

end Outcome

namespace CommandLine

/-- A short account of what a program takes. -/
def Grammar.usage (g : Grammar) : String :=
  "Usage: " ++ g.root.name ++ " [OPTIONS]"
    ++ (if g.commands.isEmpty then "" else if g.needsCommand then " <COMMAND>" else " [COMMAND]") ++ "\n"
    ++ String.join (g.commands.map fun c =>
        "  " ++ c.name ++ String.join (c.operands.map fun o => " <" ++ o.name.toUpper ++ ">") ++ "\n")

/-- What is wrong with a command line, in words. -/
def Refusal.message : Refusal → String
  | badValue => "invalid value"
  | unknown => "unexpected argument"
  | missingOperand => "required arguments were not provided"
  | unknownCommand => "unrecognized subcommand"
  | missingValue => "a value is required"
  | valueOfFlag => "unexpected value"
  | twice => "an argument cannot be used multiple times"
  | missingCommand | nothing => "a subcommand is required"
  | helpAsked | versionAsked => ""

/-- How a program ends that its command line does not let run. -/
def Refusal.outcome (g : Grammar) : Refusal → Outcome
  | helpAsked => .done g.usage
  | versionAsked => .done (g.root.name ++ " " ++ Outcome.version ++ "\n")
  | r => ⟨2, "", "error: " ++ r.message ++ "\n\n" ++ g.usage⟩

end CommandLine
end SearchTelemetry
