import SearchTelemetry.CommandLine.Reader
import SearchTelemetry.Settings.Merge
/-!
# CommandLine.Service — the command line of the service

Options give the port and the backlog; a command looks after the settings file instead of starting the service.
-/
namespace SearchTelemetry

/-- What is to be done with the settings file. -/
inductive FileAction where
  /-- Say where the file is. -/
  | path
  /-- Show the settings in effect. -/
  | display
  /-- Write the defaults. -/
  | reset
  /-- Bring the file up to date. -/
  | update
  /-- Say what can be done. -/
  | usage
deriving DecidableEq, Repr

/-- A run of the service. -/
structure ServiceInvocation where
  port : Option UInt16
  backlog : Option Int64
  action : Option FileAction
deriving DecidableEq, Repr

namespace FileAction

open CommandLine

/-- The action that flags ask for; of several the first of the actions above. -/
def ofArguments (given : List (String × Argument)) : FileAction :=
  if isSet given "path" then path
  else if isSet given "show" then display
  else if isSet given "reset" then reset
  else if isSet given "update" then update
  else usage

/-- What is said of the actions. -/
def usageText : String :=
  "Usage: evaluation config [--show|--reset|--update|--path]\n\n"
    ++ "Options:\n"
    ++ "  --show    Display effective configuration\n"
    ++ "  --reset   Reset config file to defaults\n"
    ++ "  --update  Update config with new defaults (preserves user values)\n"
    ++ "  --path    Show config file path\n"

end FileAction

namespace ServiceInvocation

open CommandLine

/-- What the service takes. -/
def grammar : Grammar :=
  { root := ⟨"evaluation", [helpFlag, versionFlag], [⟨"port", some 'p', .port⟩, ⟨"backlog", some 'b', .integer⟩], []⟩
    commands :=
      [⟨"config",
        [⟨"show", none, .set⟩, ⟨"reset", none, .set⟩, ⟨"update", none, .set⟩, ⟨"path", none, .set⟩, helpFlag], [], []⟩]
    needsCommand := false }

/-- The run that a command line asks for. -/
def read (words : List String) : Except Refusal ServiceInvocation :=
  (grammar.read words).map fun arguments =>
    { port := port? arguments.own "port", backlog := integer? arguments.own "backlog",
      action := arguments.command.map fun (_, given) => FileAction.ofArguments given }

/-- The settings, as the command line changes them. -/
def apply (i : ServiceInvocation) (s : Settings) : Except SettingsFault Settings :=
  let s := match i.port with
    | some port => { s with bind := s.bind.withPort port }
    | none => s
  match i.backlog with
  | some n => (Settings.checkBacklog n).map fun backlog => { s with backlog }
  | none => .ok s

end ServiceInvocation
end SearchTelemetry
