import SearchTelemetry.Causes
import SearchTelemetry.Settings.Basic
import SearchTelemetry.Settings.File
import SearchTelemetry.Text.Blank
import SearchTelemetry.Text.Quoted
import SearchTelemetry.Text.Utf8
/-!
# Settings.Merge — from a file and the environment to settings

The environment wins over the file, and the file over the defaults.  A data directory of nothing but blanks counts as
none.  The settings are checked in the order of their fields, and the first that is wrong is what is said.
-/
namespace SearchTelemetry

/-- What the environment of a program says. -/
structure Environment where
  bind : Option String
  dataDirectory : Option String
  service : Option String
deriving DecidableEq, Repr

/-- What is wrong with settings. -/
inductive SettingsFault where
  /-- The service cannot listen on what is no socket address. -/
  | badBind (raw : String)
  /-- The service cannot be found at what is no socket address. -/
  | badService (raw : String)
  | backlogNotPositive (given : Int64)
  | backlogTooLarge (given : Int64)
  /-- The relay cannot listen on what is no address of a host. -/
  | badListenIp (raw : String)
  /-- The file holds bytes that are no text. -/
  | notText (path : String)
  /-- The file is malformed, or a field of it has the wrong kind. -/
  | malformed (path : String)
  /-- A text to be brought up to date is malformed. -/
  | malformedExisting
deriving DecidableEq, Repr

namespace SettingsFault

/-- What is said of bytes that are no text. -/
def noText : String :=
  "stream did not contain valid UTF-8"

/-- The message of a fault and what is behind it. -/
def causes : SettingsFault → Causes
  | badBind raw => Causes.within ("Invalid bind address " ++ Quoted.quote raw) (.plain SocketAddress.notAnAddress)
  | badService raw => Causes.within ("Invalid upstream address " ++ Quoted.quote raw) (.plain SocketAddress.notAnAddress)
  | backlogNotPositive n => .plain ("Backlog size must be positive, got " ++ Numeral.intText n.toInt)
  | backlogTooLarge n =>
    Causes.within ("Backlog size " ++ Numeral.intText n.toInt ++ " is too large")
      (.plain "number too large to fit in target type")
  | badListenIp raw =>
    .plain ("Invalid [proxy].bind_ip " ++ Quoted.quote raw ++ ": " ++ IpAddress.notAnAddress)
  | notText path => Causes.within ("Cannot read " ++ path) (.plain noText)
  | malformed path =>
    Causes.within ("Failed to parse " ++ path ++ " (check quoting, booleans and section names)")
      (.plain "TOML parse error")
  | malformedExisting => Causes.within "Failed to parse existing config" (.plain "TOML parse error")

end SettingsFault

namespace Environment

/-- An environment that says nothing. -/
def empty : Environment :=
  ⟨none, none, none⟩

end Environment

namespace Settings

/-- A listen backlog: at least one, and no more than a word of 32 bits holds. -/
def checkBacklog (n : Int64) : Except SettingsFault UInt32 :=
  if n < 1 then .error (.backlogNotPositive n)
  else if (UInt32.size : Int) ≤ n.toInt then .error (.backlogTooLarge n)
  else .ok (UInt32.ofNat n.toInt.toNat)

/-- A socket address that was given, or the standard one. -/
def address (fault : String → SettingsFault) (standard : SocketAddress) :
    Option String → Except SettingsFault SocketAddress
  | none => .ok standard
  | some raw =>
    match SocketAddress.read? raw with
    | some x => .ok x
    | none => .error (fault raw)

/-- What a file says of the log, completed by the defaults. -/
def logOfFile (f : LogFile) : LogSettings :=
  let standard := LogSettings.standard
  { level := f.level.getD standard.level, fileEnabled := f.fileEnabled.getD standard.fileEnabled,
    fileDirectory := f.fileDirectory.getD standard.fileDirectory,
    rotation := (f.rotation.map Rotation.ofName).getD standard.rotation,
    fileStem := f.fileStem.getD standard.fileStem }

/-- What a file says of the relay, completed by the defaults. -/
def relayOfFile (f : RelayFile) : Except SettingsFault RelaySettings :=
  let standard := RelaySettings.standard
  let listenIp : Except SettingsFault IpAddress :=
    match f.listenIp with
    | none => .ok standard.listenIp
    | some raw =>
      match IpAddress.read? raw with
      | some x => .ok x
      | none => .error (.badListenIp raw)
  listenIp.map fun listenIp =>
    { listenIp, connectTimeout := f.connectTimeout.getD standard.connectTimeout,
      exchangeTimeout := f.exchangeTimeout.getD standard.exchangeTimeout,
      idleTimeout := f.idleTimeout.getD standard.idleTimeout,
      maxHeadBytes := f.maxHeadBytes.getD standard.maxHeadBytes,
      previewBytes := f.previewBytes.getD standard.previewBytes, captureFile := f.captureFile }

/-- The settings of a file and an environment. -/
def merge (file : SettingsFile) (env : Environment) : Except SettingsFault Settings := do
  let standard := Settings.standard
  let bind ← address .badBind standard.bind (env.bind.or file.bind)
  let service ← address .badService standard.service (env.service.or file.service)
  let backlog ← match file.backlog with
    | some n => checkBacklog n
    | none => .ok standard.backlog
  let relay ← relayOfFile file.relay
  return { bind, backlog, firstQueryId := file.firstQueryId.getD standard.firstQueryId,
           maxSuggestions := file.maxSuggestions.getD standard.maxSuggestions,
           dataDirectory := (env.dataDirectory.or file.dataDirectory).filter (!Blank.isAllBlank ·),
           service, log := logOfFile file.log, relay }

/-- The settings of a file, found at a path or not there, and an environment. -/
def load (path : String) (content : Option (List UInt8)) (env : Environment) : Except SettingsFault Settings :=
  match content with
  | none => merge .empty env
  | some bytes =>
    match Utf8.string? bytes with
    | none => .error (.notText path)
    | some text =>
      match SettingsFile.read? text with
      | none => .error (.malformed path)
      | some file => merge file env

end Settings
end SearchTelemetry
