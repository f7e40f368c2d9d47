import SearchTelemetry.Net.SocketAddress
import SearchTelemetry.Text.Lowercase
import SearchTelemetry.Text.Numeral
/-!
# Settings — what the programs can be told

Every setting has a default.  Times are in milliseconds.
-/
namespace SearchTelemetry

/-- When a log file is followed by a new one. -/
inductive Rotation where
  | hourly
  | daily
  | never
deriving DecidableEq, Repr

namespace Rotation

/-- The name of a rotation. -/
def name : Rotation → String
  | hourly => "hourly"
  | daily => "daily"
  | never => "never"

/-- The rotation of a name in any letter case; a name of none means daily. -/
def ofName (s : String) : Rotation :=
  let lowered := Lowercase.lower s.toList
  if lowered = "hourly".toList then hourly
  else if lowered = "never".toList then never
  else daily

end Rotation

/-- What is logged, and where. -/
structure LogSettings where
  level : String
  /-- Whether files are written besides the console. -/
  fileEnabled : Bool
  fileDirectory : String
  rotation : Rotation
  /-- What the names of the files begin with. -/
  fileStem : String
deriving DecidableEq, Repr

/-- How the relay listens, how long it waits and how much it keeps. -/
structure RelaySettings where
  listenIp : IpAddress
  connectTimeout : Nat
  /-- The longest wait for the head of a response. -/
  exchangeTimeout : Nat
  /-- The longest pause within a body. -/
  idleTimeout : Nat
  maxHeadBytes : Nat
  /-- How many bytes of a body are kept to be shown. -/
  previewBytes : Nat
  captureFile : Option String
deriving DecidableEq, Repr

/-- Everything that the programs can be told. -/
structure Settings where
  /-- Where the service listens. -/
  bind : SocketAddress
  backlog : UInt32
  firstQueryId : Int64
  maxSuggestions : Nat
  /-- The directory of the journal; reports stay in memory where there is none. -/
  dataDirectory : Option String
  /-- Where the tool and the relay look for the service. -/
  service : SocketAddress
  log : LogSettings
  relay : RelaySettings
deriving DecidableEq, Repr

namespace LogSettings

/-- Information and worse to the console, no files. -/
def standard : LogSettings :=
  { level := "info", fileEnabled := false, fileDirectory := "./log", rotation := .daily, fileStem := "evaluation" }

/-- The filter that logs both programs at the level. -/
def directive (l : LogSettings) : String :=
  "evaluation=" ++ l.level ++ ",evaltool=" ++ l.level

end LogSettings

namespace RelaySettings

/-- The defaults of the relay, which listens on the host itself. -/
def standard : RelaySettings :=
  { listenIp := .v4 .loopback, connectTimeout := 2000, exchangeTimeout := 10000, idleTimeout := 30000,
    maxHeadBytes := 64 * 1024, previewBytes := 4 * 1024, captureFile := none }

end RelaySettings

namespace Settings

/-- Port 8080 of the host itself, and nothing kept on disk. -/
def standard : Settings :=
  { bind := .v4 .loopback 8080, backlog := 10, firstQueryId := 1, maxSuggestions := 1000, dataDirectory := none,
    service := .v4 .loopback 8080, log := .standard, relay := .standard }

end Settings
end SearchTelemetry
