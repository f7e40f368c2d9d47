import SearchTelemetry.Program.Upkeep
import SearchTelemetry.Service
/-!
# Program.Start — how the service starts

First the command line, then the settings, then the store: whatever is wrong ends the program before it listens.  A
settings file is written if there is none, so that there is something to change.
-/
namespace SearchTelemetry

namespace LogSettings

/-- The date and, if files change hourly, the hour that the name of a log file ends with. -/
def fileMark (l : LogSettings) (now : Instant) : String :=
  let moment := now.localChars
  match l.rotation with
  | .never => ""
  | .daily => "." ++ String.ofList (moment.takeWhile (· ≠ 'T'))
  | .hourly =>
    "." ++ String.ofList (moment.takeWhile (· ≠ 'T')) ++ "-"
      ++ String.ofList (((moment.dropWhile (· ≠ 'T')).drop 1).take 2)

/-- The names of the log files in their directory: what is worth knowing, and everything. -/
def fileNames (l : LogSettings) (now : Instant) : List String :=
  if l.fileEnabled then ["info", "trace"].map fun kind => l.fileStem ++ "-" ++ kind ++ ".log" ++ l.fileMark now
  else []

end LogSettings

/-- What becomes of a start. -/
inductive Start where
  /-- The program has ended. -/
  | ended (outcome : Outcome) (files : SettingsFiles)
  /-- The settings are known, and the store can be opened. -/
  | ready (settings : Settings) (files : SettingsFiles)
deriving DecidableEq, Repr

namespace Start

/-- Starts on a command line, with the settings file at a path. -/
def ofWords (path : String) (words : List String) (env : Environment) (input : String) (files : SettingsFiles) : Start :=
  match ServiceInvocation.read words with
  | .error r => ended (r.outcome ServiceInvocation.grammar) files
  | .ok i =>
    match i.action with
    | some action =>
      let (outcome, files) := action.run path env input files
      ended outcome files
    | none =>
      let files := files.ensured
      match (Settings.load path files.current env).bind i.apply with
      | .error f => ended (.notStarted f.causes) files
      | .ok settings => ready settings files

end Start

/-- The service that settings ask for.  `directory` is what their data directory holds. -/
def Service.ofSettings (s : Settings) (directory : DataDirectory) : Except Causes Service :=
  let store : Except Causes Store :=
    match s.dataDirectory with
    | none => .ok .inMemory
    | some name => Store.open? name directory
  store.map fun store => .ofStore store s.firstQueryId s.maxSuggestions

end SearchTelemetry
