import SearchTelemetry.CommandLine.Service
import SearchTelemetry.Program.Outcome
import SearchTelemetry.Settings.Layout
import SearchTelemetry.Text.LetterCase
/-!
# Program.Upkeep — looking after the settings file

Nothing is overwritten unasked: the defaults replace a file only if the user agrees, and a file that is brought up to date
leaves a copy of what it was.  A file that is malformed, or whose settings are wrong, is left alone.
-/
namespace SearchTelemetry

/-- The settings file and the copy of what it was. -/
structure SettingsFiles where
  current : Option (List UInt8)
  backup : Option (List UInt8)
deriving DecidableEq, Repr

namespace SettingsFiles

/-- The settings file of the defaults. -/
def standard : List UInt8 :=
  Utf8.bytes Settings.standard.text

/-- The files once there is a settings file. -/
def ensured (f : SettingsFiles) : SettingsFiles :=
  { f with current := some (f.current.getD standard) }

end SettingsFiles

namespace FileAction

/-- The first line of an input, with its end. -/
def firstLine (input : String) : String :=
  let cs := input.toList
  String.ofList (cs.take ((cs.takeWhile (· ≠ '\n')).length + 1))

/-- Whether an answer agrees. -/
def agrees (answer : String) : Bool :=
  LetterCase.same (Blank.trimString answer) "y"

/-- The copy of a file. -/
def backupPath (path : String) : String :=
  path ++ ".bak"

/-- Shows the settings in effect, and where they are from. -/
def runDisplay (path : String) (env : Environment) (files : SettingsFiles) : Outcome :=
  match Settings.load path files.current env with
  | .error f => .failed f.causes.line
  | .ok s =>
    .done ("# Effective configuration (env > file > defaults)\n\n" ++ s.text ++ "\n# Source: "
      ++ (if files.current.isSome then path else "defaults (no config file)") ++ "\n")

/-- What the user is asked before an action; empty if nothing. -/
def question (path : String) (files : SettingsFiles) : FileAction → String
  | reset => if files.current.isSome then "Config file exists at " ++ path ++ ". Overwrite? [y/N] " else ""
  | _ => ""

/-- Writes the defaults, if there is no file yet or the user agrees to lose it. -/
def runReset (path input : String) (files : SettingsFiles) : Outcome × SettingsFiles :=
  let question := question path files reset
  if files.current.isNone || agrees (firstLine input) then
    (⟨0, "Config reset to defaults: " ++ path ++ "\n", question⟩, { files with current := some SettingsFiles.standard })
  else (⟨0, "Aborted.\n", question⟩, files)

/-- Brings the file up to date, or writes the defaults if there is none. -/
def runUpdate (path : String) (files : SettingsFiles) : Outcome × SettingsFiles :=
  match files.current with
  | none => (.done ("Created new config file: " ++ path ++ "\n"), files.ensured)
  | some bytes =>
    match Utf8.string? bytes with
    | none => (.failed SettingsFault.noText, files)
    | some content =>
      match Settings.refresh content with
      | .error f => (.failed f.causes.line, files)
      | .ok text =>
        (.done ("Backup created: " ++ backupPath path ++ "\nConfig updated with latest structure: " ++ path
          ++ "\nYour values have been preserved.\n"), ⟨some (Utf8.bytes text), some bytes⟩)

/-- Runs an action on the file at a path.  `input` is what the user answers to a question. -/
def run (path : String) (env : Environment) (input : String) (files : SettingsFiles) :
    FileAction → Outcome × SettingsFiles
  | .path => (.done (path ++ "\n"), files)
  | display => (runDisplay path env files, files)
  | reset => runReset path input files
  | update => runUpdate path files
  | usage => (.done usageText, files)

end FileAction
end SearchTelemetry
