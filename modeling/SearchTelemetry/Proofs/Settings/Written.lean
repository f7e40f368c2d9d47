import SearchTelemetry.Proofs.Toml.Lines
import SearchTelemetry.Proofs.Toml.Tables
import SearchTelemetry.Settings.Layout
/-!
# Settings.Written — the file says what the settings are

The settings file is read as all that its settings are (`SettingsFile.read?_text`): no field is left out, none stands in
another section, and a setting that has no value is only a comment.
-/
namespace SearchTelemetry

open Toml

/-- All that a file can say of the log. -/
def LogSettings.file (l : LogSettings) : LogFile :=
  { level := some l.level, fileEnabled := some l.fileEnabled, fileDirectory := some l.fileDirectory,
    rotation := some l.rotation.name, fileStem := some l.fileStem }

/-- All that a file can say of the relay. -/
def RelaySettings.file (r : RelaySettings) : RelayFile :=
  { listenIp := some r.listenIp.text, connectTimeout := some r.connectTimeout, exchangeTimeout := some r.exchangeTimeout,
    idleTimeout := some r.idleTimeout, maxHeadBytes := some r.maxHeadBytes, previewBytes := some r.previewBytes,
    captureFile := r.captureFile }

/-- The field of a setting that may have no value. -/
def optionalField (name : String) : Option String → Fields
  | none => []
  | some value => [(name, .string value)]

/-- The fields of the section on the log. -/
def LogSettings.fields (l : LogSettings) : Fields :=
  [("level", .string l.level), ("file_enabled", .boolean l.fileEnabled), ("file_dir", .string l.fileDirectory),
    ("file_rotation", .string l.rotation.name), ("file_prefix", .string l.fileStem)]

/-- The fields of the section on the relay. -/
def RelaySettings.fields (r : RelaySettings) : Fields :=
  [("bind_ip", .string r.listenIp.text), ("connect_timeout_ms", .integer r.connectTimeout),
    ("exchange_timeout_ms", .integer r.exchangeTimeout), ("idle_timeout_ms", .integer r.idleTimeout),
    ("max_head_bytes", .integer r.maxHeadBytes), ("log_body_bytes", .integer r.previewBytes)] ++
    optionalField "capture_file" r.captureFile

namespace Settings

/-- All that a file can say of settings. -/
def file (s : Settings) : SettingsFile :=
  { bind := some s.bind.text, backlog := some (Int64.ofInt s.backlog.toNat), firstQueryId := some s.firstQueryId,
    maxSuggestions := some s.maxSuggestions, dataDirectory := s.dataDirectory, service := some s.service.text,
    log := s.log.file, relay := s.relay.file }

/-- The greatest number that a settings file can hold. -/
def maxNumber : Nat :=
  2 ^ 63 - 1

/-- The numbers among the settings that are not bounded by their kind are small enough for a file. -/
structure Bounded (s : Settings) : Prop where
  maxSuggestions : s.maxSuggestions ≤ maxNumber
  connectTimeout : s.relay.connectTimeout ≤ maxNumber
  exchangeTimeout : s.relay.exchangeTimeout ≤ maxNumber
  idleTimeout : s.relay.idleTimeout ≤ maxNumber
  maxHeadBytes : s.relay.maxHeadBytes ≤ maxNumber
  previewBytes : s.relay.previewBytes ≤ maxNumber

/-! ## Lines -/

instance (name : String) : Decidable (IsName name) :=
  decidable_of_iff (name.toList ≠ [] ∧ name.toList.all isNameChar = true)
    ⟨fun h => ⟨h.1, List.all_eq_true.1 h.2⟩, fun h => ⟨h.ne_nil, List.all_eq_true.2 h.chars⟩⟩

theorem sound_natural {name : String} (h : IsName name) {n : Nat} (hn : n ≤ maxNumber) : (Line.integer name n).Sound := by
  refine ⟨h, ?_, ?_⟩
  · show -9223372036854775808 ≤ (n : Int)
    omega
  · show (n : Int) ≤ 9223372036854775807
    unfold maxNumber at hn
    omega

theorem sound_comment {text : String} (h : text.toList.all isLineChar = true) : (Line.comment text).Sound :=
  List.all_eq_true.1 h

theorem sound_string {name : String} (h : IsName name) (value : String) : (Line.string name value "").Sound :=
  ⟨h, List.forall_mem_nil _⟩

/-- The example of a setting that has no value stays within its comment. -/
theorem sound_optional {name sample : String} (h : IsName name)
    (hsample : (name ++ " = " ++ quote sample).toList.all isLineChar = true) (value : Option String) :
    (Line.optional name value sample).Sound := by
  cases value with
  | none => exact sound_comment hsample
  | some value => exact sound_string h value

theorem sound_serviceLines {s : Settings} (h : s.Bounded) : ∀ l ∈ s.serviceLines, l.Sound := by
  have hbacklog : s.backlog.toNat ≤ maxNumber := Nat.le_of_lt_succ (Nat.lt_trans s.backlog.toNat_lt (by decide))
  have hfirst : (Line.integer "first_query_id" s.firstQueryId.toInt).Sound :=
    ⟨by decide, s.firstQueryId.le_toInt, s.firstQueryId.toInt_le⟩
  simp only [serviceLines, List.forall_mem_cons]
  refine ⟨sound_comment (by decide), trivial, sound_comment (by decide), sound_string (by decide) _, trivial,
    sound_comment (by decide), sound_natural (by decide) hbacklog, trivial, sound_comment (by decide), hfirst, trivial,
    sound_comment (by decide), sound_natural (by decide) h.maxSuggestions, trivial, sound_comment (by decide),
    sound_comment (by decide), sound_optional (by decide) (by decide) _, trivial, sound_comment (by decide),
    sound_string (by decide) _, trivial, List.forall_mem_nil _⟩

theorem sound_logLines (l : LogSettings) : ∀ line ∈ logLines l, line.Sound := by
  simp only [logLines, List.forall_mem_cons]
  have hrotation : (Line.string "file_rotation" l.rotation.name "hourly, daily, never").Sound :=
    ⟨by decide, List.all_eq_true.1 (by decide)⟩
  have henabled : IsName "file_enabled" := by decide
  have hheader : IsName "logging" := by decide
  exact ⟨sound_comment (by decide), hheader, sound_string (by decide) _, sound_comment (by decide),
    sound_comment (by decide), henabled, sound_string (by decide) _, hrotation, sound_string (by decide) _, trivial,
    List.forall_mem_nil _⟩

theorem sound_relayLines {s : Settings} (h : s.Bounded) : ∀ l ∈ relayLines s.relay, l.Sound := by
  simp only [relayLines, List.forall_mem_cons]
  have hheader : IsName "proxy" := by decide
  exact ⟨sound_comment (by decide), hheader, sound_string (by decide) _, sound_natural (by decide) h.connectTimeout,
    sound_natural (by decide) h.exchangeTimeout, sound_comment (by decide), sound_natural (by decide) h.idleTimeout,
    sound_natural (by decide) h.maxHeadBytes, sound_natural (by decide) h.previewBytes, sound_comment (by decide),
    sound_optional (by decide) (by decide) _, List.forall_mem_nil _⟩

/-! ## Fields -/

/-- The fields outside of all sections. -/
def serviceFields (s : Settings) : Fields :=
  [("bind_addr", .string s.bind.text), ("backlog", .integer s.backlog.toNat), ("first_query_id", .integer s.firstQueryId.toInt),
    ("max_suggestions", .integer s.maxSuggestions)] ++ optionalField "data_dir" s.dataDirectory ++
    [("upstream", .string s.service.text)]

theorem filterMap_lines (s : Settings) :
    (s.serviceLines ++ logLines s.log ++ relayLines s.relay).filterMap Line.statement? =
      Toml.settings s.serviceFields ++ [("logging", s.log.fields), ("proxy", s.relay.fields)].flatMap sectionOf := by
  have hservice : s.serviceLines.filterMap Line.statement? = Toml.settings s.serviceFields := by
    unfold serviceLines serviceFields
    cases s.dataDirectory <;> rfl
  have hrelay : (relayLines s.relay).filterMap Line.statement? = sectionOf ("proxy", s.relay.fields) := by
    unfold relayLines RelaySettings.fields
    cases s.relay.captureFile <;> rfl
  have hlog : (logLines s.log).filterMap Line.statement? = sectionOf ("logging", s.log.fields) := rfl
  rw [List.filterMap_append, List.filterMap_append, hservice, hlog, hrelay]
  simp

theorem fields?_text {s : Settings} (h : s.Bounded) :
    fields? s.text = some (s.serviceFields ++ Document.tables [("logging", s.log.fields), ("proxy", s.relay.fields)]) := by
  have hsound : ∀ l ∈ s.serviceLines ++ logLines s.log ++ relayLines s.relay, l.Sound := by
    intro l hl
    rcases List.mem_append.1 hl with hl | hl
    · rcases List.mem_append.1 hl with hl | hl
      · exact sound_serviceLines h l hl
      · exact sound_logLines s.log l hl
    · exact sound_relayLines h l hl
  rw [text, fields?_render hsound, filterMap_lines]
  refine Document.build?_sections _ _ ?_ ?_
  · unfold serviceFields
    cases s.dataDirectory <;> simp [Fields.names, optionalField]
  · rintro _ hmem
    rcases List.mem_cons.1 hmem with rfl | hmem
    · simp [Fields.names, LogSettings.fields]
    · rw [List.mem_singleton.1 hmem]
      unfold RelaySettings.fields
      cases s.relay.captureFile <;> simp [Fields.names, optionalField]

end Settings

theorem SettingsFile.ofFields?_fields (s : Settings) :
    SettingsFile.ofFields?
        (s.serviceFields ++ Document.tables [("logging", s.log.fields), ("proxy", s.relay.fields)]) =
      some { s.file with firstQueryId := some (Int64.ofInt s.firstQueryId.toInt) } := by
  obtain ⟨bind, backlog, firstQueryId, maxSuggestions, dataDirectory, service, log, relay⟩ := s
  obtain ⟨listenIp, connectTimeout, exchangeTimeout, idleTimeout, maxHeadBytes, previewBytes, captureFile⟩ := relay
  cases dataDirectory <;> cases captureFile <;> rfl

/-- **The settings file is read as all that the settings are.** -/
theorem SettingsFile.read?_text {s : Settings} (h : s.Bounded) : SettingsFile.read? s.text = some s.file := by
  rw [SettingsFile.read?, Settings.fields?_text h, Option.bind_some, ofFields?_fields, Int64.ofInt_toInt]
  rfl

end SearchTelemetry
