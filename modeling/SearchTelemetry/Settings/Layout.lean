import SearchTelemetry.Settings.Merge
import SearchTelemetry.Toml.Layout
/-!
# Settings.Layout — the settings file

All settings are written, each with a comment that says what it is for.  A file that is brought up to date keeps what it
said and gets this layout (`Settings.refresh`).
-/
namespace SearchTelemetry
namespace Settings

open Toml (Line)

/-- The lines of the service's own settings. -/
def serviceLines (s : Settings) : List Line :=
  [.comment "evaluation configuration", .blank,
    .comment "Service bind address (EVALUATION_BIND env var overrides)",
    .string "bind_addr" s.bind.text "", .blank,
    .comment "Listen backlog, must be at least 1 (--backlog overrides)",
    .integer "backlog" s.backlog.toNat, .blank,
    .comment "First identifier handed out by GetQueryID",
    .integer "first_query_id" s.firstQueryId.toInt, .blank,
    .comment "Largest num_suggestions GetAutofill accepts",
    .integer "max_suggestions" s.maxSuggestions, .blank,
    .comment "Report journal directory; unset keeps reports in memory only",
    .comment "(EVALUATION_DATA_DIR env var overrides)",
    .optional "data_dir" s.dataDirectory "./data", .blank,
    .comment "Service address used by evaltool and the proxy (EVALUATION_UPSTREAM overrides)",
    .string "upstream" s.service.text "", .blank]

/-- The lines of the section on the log. -/
def logLines (l : LogSettings) : List Line :=
  [.comment "Logging configuration (RUST_LOG env var overrides)",
    .header "logging",
    .string "level" l.level "",
    .comment "File logging (in addition to console output): <prefix>-info.log at INFO",
    .comment "and <prefix>-trace.log at TRACE",
    .boolean "file_enabled" l.fileEnabled,
    .string "file_dir" l.fileDirectory "",
    .string "file_rotation" l.rotation.name "hourly, daily, never",
    .string "file_prefix" l.fileStem "", .blank]

/-- The lines of the section on the relay. -/
def relayLines (r : RelaySettings) : List Line :=
  [.comment "Diagnostic proxy (evaltool proxy <port>)",
    .header "proxy",
    .string "bind_ip" r.listenIp.text "",
    .integer "connect_timeout_ms" r.connectTimeout,
    .integer "exchange_timeout_ms" r.exchangeTimeout,
    .comment "Abandon a body that stalls this long between reads",
    .integer "idle_timeout_ms" r.idleTimeout,
    .integer "max_head_bytes" r.maxHeadBytes,
    .integer "log_body_bytes" r.previewBytes,
    .comment "Append every observed exchange as JSON Lines",
    .optional "capture_file" r.captureFile "./log/capture.jsonl"]

/-- The settings as a file. -/
def text (s : Settings) : String :=
  Toml.render (s.serviceLines ++ logLines s.log ++ relayLines s.relay)

/-- A settings file in the present layout, with what it said.  The environment has no part in it. -/
def refresh (content : String) : Except SettingsFault String :=
  match SettingsFile.read? content with
  | none => .error .malformedExisting
  | some file => (merge file .empty).map text

end Settings
end SearchTelemetry
