import SearchTelemetry.Toml.Document
/-!
# Settings.File — the settings that a file gives

Every field of the file is optional, and fields of other names are passed over.  A field of the wrong kind makes the file
malformed, and so does a negative number where a size or a time is asked for.  A section is a table, or an array of its
values in the order of its fields, none left out.
-/
namespace SearchTelemetry

/-- What a file says of the log. -/
structure LogFile where
  level : Option String
  fileEnabled : Option Bool
  fileDirectory : Option String
  rotation : Option String
  fileStem : Option String
deriving DecidableEq, Repr

/-- What a file says of the relay. -/
structure RelayFile where
  listenIp : Option String
  connectTimeout : Option Nat
  exchangeTimeout : Option Nat
  idleTimeout : Option Nat
  maxHeadBytes : Option Nat
  previewBytes : Option Nat
  captureFile : Option String
deriving DecidableEq, Repr

/-- What a file says. -/
structure SettingsFile where
  bind : Option String
  backlog : Option Int64
  firstQueryId : Option Int64
  maxSuggestions : Option Nat
  dataDirectory : Option String
  service : Option String
  log : LogFile
  relay : RelayFile
deriving DecidableEq, Repr

namespace Toml
namespace Value

/-- The string that a value is. -/
def string? : Value → Option String
  | .string s => some s
  | _ => none

/-- The truth value that a value is. -/
def boolean? : Value → Option Bool
  | .boolean b => some b
  | _ => none

/-- The integer that a value is. -/
def integer? : Value → Option Int64
  | .integer i => some (Int64.ofInt i)
  | _ => none

/-- The integer not below zero that a value is. -/
def natural? : Value → Option Nat
  | .integer i => if 0 ≤ i then some i.toNat else none
  | _ => none

/-- The fields of a section whose fields have the given names. -/
def section? (names : List String) : Value → Option Fields
  | .table _ fields => some fields
  | .array items => if items.length < names.length then none else some (names.zip items)
  | _ => none

end Value

namespace Fields

/-- What stands under a name, read in a given way: nothing if the name is not there, a failure if it cannot be read so. -/
def optional? {α : Type} (fields : Fields) (name : String) (read? : Value → Option α) : Option (Option α) :=
  match fields.lookup name with
  | none => some none
  | some v => (read? v).map some

end Fields
end Toml

open Toml (Fields Value)

namespace LogFile

/-- What is said where there is no section. -/
def empty : LogFile :=
  ⟨none, none, none, none, none⟩

/-- The names of the fields, in their order. -/
def names : List String :=
  ["level", "file_enabled", "file_dir", "file_rotation", "file_prefix"]

/-- What a section says. -/
def read? (v : Value) : Option LogFile :=
  (v.section? names).bind fun fs =>
    (fs.optional? "level" Value.string?).bind fun level =>
      (fs.optional? "file_enabled" Value.boolean?).bind fun fileEnabled =>
        (fs.optional? "file_dir" Value.string?).bind fun fileDirectory =>
          (fs.optional? "file_rotation" Value.string?).bind fun rotation =>
            (fs.optional? "file_prefix" Value.string?).map fun fileStem =>
              ⟨level, fileEnabled, fileDirectory, rotation, fileStem⟩

end LogFile

namespace RelayFile

/-- What is said where there is no section. -/
def empty : RelayFile :=
  ⟨none, none, none, none, none, none, none⟩

/-- The names of the fields, in their order. -/
def names : List String :=
  ["bind_ip", "connect_timeout_ms", "exchange_timeout_ms", "idle_timeout_ms", "max_head_bytes", "log_body_bytes",
    "capture_file"]

/-- What a section says. -/
def read? (v : Value) : Option RelayFile :=
  (v.section? names).bind fun fs =>
    (fs.optional? "bind_ip" Value.string?).bind fun listenIp =>
      (fs.optional? "connect_timeout_ms" Value.natural?).bind fun connectTimeout =>
        (fs.optional? "exchange_timeout_ms" Value.natural?).bind fun exchangeTimeout =>
          (fs.optional? "idle_timeout_ms" Value.natural?).bind fun idleTimeout =>
            (fs.optional? "max_head_bytes" Value.natural?).bind fun maxHeadBytes =>
              (fs.optional? "log_body_bytes" Value.natural?).bind fun previewBytes =>
                (fs.optional? "capture_file" Value.string?).map fun captureFile =>
                  ⟨listenIp, connectTimeout, exchangeTimeout, idleTimeout, maxHeadBytes, previewBytes, captureFile⟩

end RelayFile

namespace SettingsFile

/-- What is said where there is no file. -/
def empty : SettingsFile :=
  ⟨none, none, none, none, none, none, .empty, .empty⟩

/-- What the fields of a file say. -/
def ofFields? (fs : Fields) : Option SettingsFile :=
  (fs.optional? "bind_addr" Value.string?).bind fun bind =>
    (fs.optional? "backlog" Value.integer?).bind fun backlog =>
      (fs.optional? "first_query_id" Value.integer?).bind fun firstQueryId =>
        (fs.optional? "max_suggestions" Value.natural?).bind fun maxSuggestions =>
          (fs.optional? "data_dir" Value.string?).bind fun dataDirectory =>
            (fs.optional? "upstream" Value.string?).bind fun service =>
              (fs.optional? "logging" LogFile.read?).bind fun log =>
                (fs.optional? "proxy" RelayFile.read?).map fun relay =>
                  ⟨bind, backlog, firstQueryId, maxSuggestions, dataDirectory, service, log.getD .empty,
                    relay.getD .empty⟩

/-- What a text says. -/
def read? (text : String) : Option SettingsFile :=
  (Toml.fields? text).bind ofFields?

end SettingsFile
end SearchTelemetry
