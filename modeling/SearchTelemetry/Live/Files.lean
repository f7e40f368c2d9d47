import SearchTelemetry.Live.Socket
import SearchTelemetry.Program.Start
/-!
# Live.Files — what is on disk

The settings file, the journal, the log files and the file that the relay adds its events to.  A file that is not there is
no failure; any other failure of the system is one of the program.
-/
namespace SearchTelemetry
namespace Live

/-! ## Files -/

/-- The bytes of a file, if it is there. -/
def readFile? (path : String) : IO (Option (List UInt8)) := do
  try return some (← IO.FS.readBinFile path).toList
  catch
    | .noFileOrDirectory .. => return none
    | e => throw e

/-- Whether there is something at a path that is no directory. -/
def isFile (path : String) : IO Bool := do
  try
    let _ ← IO.FS.Handle.mk path .read
    return !(← (← IO.FS.realPath path).isDir)
  catch _ => return false

/-- The directory of a file. -/
def directoryOf (path : String) : String :=
  String.ofList ((path.toList.reverse.dropWhile (· ≠ '/')).drop 1).reverse

/-- Makes the directory of a file. -/
def makeDirectoryOf (path : String) : IO Unit := do
  let directory := directoryOf path
  unless directory.isEmpty do IO.FS.createDirAll directory

/-- Opens a file to add to it, and its directory if there is none. -/
def openToAdd (path : String) : IO IO.FS.Handle := do
  makeDirectoryOf path
  IO.FS.Handle.mk path .append

/-! ## Settings -/

/-- Where the settings file is. -/
def settingsPath : IO String := do
  return (← IO.getEnv "HOME").getD "" ++ "/.config/evaluation/config.toml"

/-- What the environment of this program says. -/
def environment : IO Environment := do
  return ⟨← IO.getEnv "EVALUATION_BIND", ← IO.getEnv "EVALUATION_DATA_DIR", ← IO.getEnv "EVALUATION_UPSTREAM"⟩

/-- The settings file and its copy. -/
def settingsFiles (path : String) : IO SettingsFiles := do
  return ⟨← readFile? path, ← readFile? (FileAction.backupPath path)⟩

/-- Writes a file that has changed. -/
def saveChange (path : String) (before after : Option (List UInt8)) : IO Unit := do
  match after with
  | none => return
  | some bs =>
    unless before = after do
      makeDirectoryOf path
      IO.FS.writeBinFile path ⟨bs.toArray⟩

/-- Writes the settings file and its copy as far as they have changed. -/
def saveSettings (path : String) (before after : SettingsFiles) : IO Unit := do
  saveChange (FileAction.backupPath path) before.backup after.backup
  saveChange path before.current after.current

/-- Makes the log files that settings ask for. -/
def makeLogs (l : LogSettings) : IO Unit := do
  for name in l.fileNames (← now) do
    let _ ← openToAdd (l.fileDirectory ++ "/" ++ name)

/-! ## The journal -/

/-- Where the journal of a data directory is. -/
def journalPath (directory : String) : String :=
  directory ++ "/" ++ Journal.fileName

/-- Makes a data directory if there is none, and says what it holds. -/
def dataDirectory (name : String) : IO DataDirectory := do
  let made ←
    try
      IO.FS.createDirAll name
      pure true
    catch _ => pure false
  if made then
    try return .journal ((← readFile? (journalPath name)).getD [])
    catch _ => return .journalIsDirectory
  else return if ← isFile name then .isFile else .behindFile

/-- A journal's file: where it is, and how many bytes it has. -/
structure JournalFile where
  path : String
  size : Nat

/-- Moves a handle so many bytes on. -/
partial def skip (h : IO.FS.Handle) (n : Nat) : IO Unit := do
  if n > 0 then
    let got ← h.read (min n 65536).toUSize
    unless got.isEmpty do skip h (n - got.size)

/-- Adds bytes to a journal's file.  What a failed write leaves behind is cut off again. -/
def JournalFile.add? (j : JournalFile) (bs : List UInt8) : IO (Option JournalFile) := do
  if bs.isEmpty then return some j
  try
    let h ← openToAdd j.path
    h.write ⟨bs.toArray⟩
    h.flush
    return some { j with size := j.size + bs.length }
  catch _ =>
    try
      let h ← IO.FS.Handle.mk j.path .readWrite
      skip h j.size
      h.truncate
    catch _ => pure ()
    return none

end Live
end SearchTelemetry
