import SearchTelemetry.Proofs.Net.Addresses
import SearchTelemetry.Proofs.Outcomes
import SearchTelemetry.Proofs.Settings.Written
import SearchTelemetry.Proofs.Text.Utf8
import SearchTelemetry.Proofs.Toml.Range
/-!
# Settings.Refreshed — a file that is brought up to date says the same

Settings are merged from their own file as themselves (`merge_file`), and settings that were merged from a file mean the
same as that file in every environment (`merge_file_eq`).  So bringing a file up to date changes nothing but its layout,
and a second time changes nothing (`refresh_keeps`).
-/
namespace SearchTelemetry

open Toml

namespace Settings

/-- Settings that a file can hold and a reader accepts. -/
structure Storable (s : Settings) : Prop extends Bounded s where
  backlog : 1 ≤ s.backlog
  dataDirectory : ∀ d ∈ s.dataDirectory, Blank.isAllBlank d = false

/-! ## Merging -/

/-- The backlog that a file gives, or the standard one. -/
def backlogOf (given : Option Int64) : Except SettingsFault UInt32 :=
  match given with
  | some n => checkBacklog n
  | none => .ok standard.backlog

/-- The directory that was given, unless it is blank. -/
def directoryOf (given : Option String) : Option String :=
  given.filter (!Blank.isAllBlank ·)

/-- What settings have to do with the file and the environment that they were merged from. -/
structure Merged (f : SettingsFile) (env : Environment) (s : Settings) : Prop where
  bind : address .badBind standard.bind (env.bind.or f.bind) = .ok s.bind
  service : address .badService standard.service (env.service.or f.service) = .ok s.service
  backlog : backlogOf f.backlog = .ok s.backlog
  relay : relayOfFile f.relay = .ok s.relay
  firstQueryId : s.firstQueryId = f.firstQueryId.getD standard.firstQueryId
  maxSuggestions : s.maxSuggestions = f.maxSuggestions.getD standard.maxSuggestions
  dataDirectory : s.dataDirectory = directoryOf (env.dataDirectory.or f.dataDirectory)
  log : s.log = logOfFile f.log

theorem merge_eq (f : SettingsFile) (env : Environment) :
    merge f env = do
      let bind ← address .badBind standard.bind (env.bind.or f.bind)
      let service ← address .badService standard.service (env.service.or f.service)
      let backlog ← backlogOf f.backlog
      let relay ← relayOfFile f.relay
      return { bind, backlog, firstQueryId := f.firstQueryId.getD standard.firstQueryId,
               maxSuggestions := f.maxSuggestions.getD standard.maxSuggestions,
               dataDirectory := directoryOf (env.dataDirectory.or f.dataDirectory), service, log := logOfFile f.log,
               relay } := by
  unfold merge backlogOf directoryOf
  cases f.backlog <;> rfl

theorem merged_of_merge {f : SettingsFile} {env : Environment} {s : Settings} (h : merge f env = .ok s) : Merged f env s := by
  rw [merge_eq] at h
  obtain ⟨bind, hbind, h⟩ := exists_of_bind_eq_ok h
  obtain ⟨service, hservice, h⟩ := exists_of_bind_eq_ok h
  obtain ⟨backlog, hbacklog, h⟩ := exists_of_bind_eq_ok h
  obtain ⟨relay, hrelay, h⟩ := exists_of_bind_eq_ok h
  cases h
  exact ⟨hbind, hservice, hbacklog, hrelay, rfl, rfl, rfl, rfl⟩

theorem Merged.merge_eq {f : SettingsFile} {env : Environment} {s : Settings} (h : Merged f env s) : merge f env = .ok s := by
  rw [Settings.merge_eq, h.bind, h.service, h.backlog, h.relay, ← h.firstQueryId, ← h.maxSuggestions, ← h.dataDirectory,
    ← h.log]
  rfl

/-- An address that the environment gives counts, whatever the file has, and otherwise that of the file. -/
theorem address_or {fault : String → SettingsFault} {own x : SocketAddress} {a b : Option String}
    (ha : address fault own a = .ok x) (hb : address fault own b = .ok x) (given : Option String) :
    address fault own (given.or a) = address fault own (given.or b) := by
  cases given with
  | none => exact ha.trans hb.symm
  | some _ => rfl

theorem directoryOf_or {a b : Option String} (h : directoryOf a = directoryOf b) (given : Option String) :
    directoryOf (given.or a) = directoryOf (given.or b) := by
  cases given with
  | none => exact h
  | some _ => rfl

/-- Files that say the same on their own say the same in every environment. -/
theorem Merged.merge_congr {f g : SettingsFile} {s : Settings} (hf : Merged f .empty s) (hg : Merged g .empty s)
    (env : Environment) : merge f env = merge g env := by
  have hbind : address .badBind standard.bind (env.bind.or f.bind) = address .badBind standard.bind (env.bind.or g.bind) :=
    address_or hf.bind hg.bind env.bind
  have hservice : address .badService standard.service (env.service.or f.service) =
      address .badService standard.service (env.service.or g.service) := address_or hf.service hg.service env.service
  have hdirectory : directoryOf (env.dataDirectory.or f.dataDirectory) = directoryOf (env.dataDirectory.or g.dataDirectory) :=
    directoryOf_or (hf.dataDirectory.symm.trans hg.dataDirectory) env.dataDirectory
  rw [Settings.merge_eq, Settings.merge_eq, hbind, hservice, hdirectory, hf.backlog, hg.backlog, hf.relay, hg.relay,
    ← hf.firstQueryId, ← hg.firstQueryId, ← hf.maxSuggestions, ← hg.maxSuggestions, ← hf.log, ← hg.log]

/-! ## Settings and their own file -/

theorem ofName_name (r : Rotation) : Rotation.ofName r.name = r := by
  cases r <;> decide

theorem address_text (fault : String → SettingsFault) (own x : SocketAddress) : address fault own (some x.text) = .ok x := by
  simp only [address, SocketAddress.read?_text]

theorem checkBacklog_toNat {n : UInt32} (h : 1 ≤ n) : checkBacklog (Int64.ofInt n.toNat) = .ok n := by
  have hpos : 1 ≤ n.toNat := UInt32.le_iff_toNat_le.1 h
  have hbound : n.toNat < 4294967296 := n.toNat_lt
  have hback : (Int64.ofInt n.toNat).toInt = n.toNat := Int64.toInt_ofInt_of_le (by omega) (by omega)
  have hsize : ¬(UInt32.size : Int) ≤ n.toNat := by
    show ¬(4294967296 : Int) ≤ n.toNat
    omega
  have hone : ¬Int64.ofInt n.toNat < 1 := by
    rw [Int64.lt_iff_toInt_lt, hback]
    show ¬(n.toNat : Int) < 1
    omega
  rw [checkBacklog, if_neg hone, hback, if_neg hsize, Int.toNat_natCast, UInt32.ofNat_toNat]

theorem relayOfFile_file (r : RelaySettings) : relayOfFile r.file = .ok r := by
  simp only [relayOfFile, RelaySettings.file, IpAddress.read?_text]
  rfl

theorem logOfFile_file (l : LogSettings) : logOfFile l.file = l := by
  simp only [logOfFile, LogSettings.file, Option.map_some, Option.getD_some, ofName_name]

theorem merged_file {s : Settings} (h : s.Storable) : Merged s.file .empty s := by
  have hdirectory : directoryOf s.dataDirectory = s.dataDirectory := by
    cases hd : s.dataDirectory with
    | none => rfl
    | some d => simp [directoryOf, h.dataDirectory d hd]
  exact ⟨address_text _ _ s.bind, address_text _ _ s.service, checkBacklog_toNat h.backlog, relayOfFile_file s.relay, rfl, rfl,
    hdirectory.symm, (logOfFile_file s.log).symm⟩

/-! ## What a file can say -/

theorem le_of_natural? {v : Value} (hv : v.Fits) {n : Nat} (h : v.natural? = some n) : n ≤ maxNumber := by
  unfold Value.natural? at h
  split at h
  · split at h
    · cases h
      cases hv with
      | integer _ hh =>
        have hmax : Int64.maxValue.toInt = 9223372036854775807 := rfl
        rw [hmax] at hh
        unfold maxNumber
        omega
    · cases h
  · cases h

/-- What stands under a name was read from a value there. -/
theorem exists_of_optional? {α : Type} {fs : Fields} {name : String} {read? : Value → Option α} {found : Option α}
    (h : fs.optional? name read? = some found) {a : α} (ha : a ∈ found) :
    ∃ v, fs.lookup name = some v ∧ read? v = some a := by
  unfold Fields.optional? at h
  split at h
  · cases h
    cases ha
  · rename_i v hlookup
    obtain ⟨b, hb, rfl⟩ := Option.map_eq_some_iff.1 h
    cases ha
    exact ⟨v, hlookup, hb⟩

theorem le_of_optional? {fs : Fields} (hfs : fs.Fits) {name : String} {found : Option Nat}
    (h : fs.optional? name Value.natural? = some found) : ∀ n ∈ found, n ≤ maxNumber := by
  intro n hn
  obtain ⟨v, hlookup, hv⟩ := exists_of_optional? h hn
  exact le_of_natural? (hfs.lookup hlookup) hv

theorem fits_section? {v : Value} (hv : v.Fits) {names : List String} {fs : Fields} (h : v.section? names = some fs) :
    fs.Fits := by
  unfold Value.section? at h
  split at h
  · cases h
    cases hv with
    | table hfields => exact hfields
  · split at h
    · cases h
    · cases h
      cases hv with
      | array hitems => exact fun f hf => hitems f.2 (List.of_mem_zip hf).2
  · cases h

theorem getD_le {given : Option Nat} {own : Nat} (h : ∀ n ∈ given, n ≤ maxNumber) (hown : own ≤ maxNumber) :
    given.getD own ≤ maxNumber := by
  cases given with
  | none => exact hown
  | some n => exact h n rfl

/-- The numbers that a section on the relay says are small enough for a file, as they came from one. -/
structure Confined (f : RelayFile) : Prop where
  connectTimeout : ∀ n ∈ f.connectTimeout, n ≤ maxNumber
  exchangeTimeout : ∀ n ∈ f.exchangeTimeout, n ≤ maxNumber
  idleTimeout : ∀ n ∈ f.idleTimeout, n ≤ maxNumber
  maxHeadBytes : ∀ n ∈ f.maxHeadBytes, n ≤ maxNumber
  previewBytes : ∀ n ∈ f.previewBytes, n ≤ maxNumber

theorem confined_empty : Confined .empty := by
  constructor <;> rintro _ ⟨⟩

theorem confined_of_read? {v : Value} (hv : v.Fits) {f : RelayFile} (h : RelayFile.read? v = some f) : Confined f := by
  obtain ⟨fs, hsection, h⟩ := Option.bind_eq_some_iff.1 h
  have hfs := fits_section? hv hsection
  obtain ⟨_, _, h⟩ := Option.bind_eq_some_iff.1 h
  obtain ⟨connectTimeout, hconnect, h⟩ := Option.bind_eq_some_iff.1 h
  obtain ⟨exchangeTimeout, hexchange, h⟩ := Option.bind_eq_some_iff.1 h
  obtain ⟨idleTimeout, hidle, h⟩ := Option.bind_eq_some_iff.1 h
  obtain ⟨maxHeadBytes, hhead, h⟩ := Option.bind_eq_some_iff.1 h
  obtain ⟨previewBytes, hpreview, h⟩ := Option.bind_eq_some_iff.1 h
  obtain ⟨_, _, rfl⟩ := Option.map_eq_some_iff.1 h
  exact ⟨le_of_optional? hfs hconnect, le_of_optional? hfs hexchange, le_of_optional? hfs hidle, le_of_optional? hfs hhead,
    le_of_optional? hfs hpreview⟩

theorem le_of_read? {content : String} {f : SettingsFile} (h : SettingsFile.read? content = some f) :
    (∀ n ∈ f.maxSuggestions, n ≤ maxNumber) ∧ Confined f.relay := by
  obtain ⟨fs, hfields, h⟩ := Option.bind_eq_some_iff.1 h
  have hfs := fits_of_fields? hfields
  obtain ⟨_, _, h⟩ := Option.bind_eq_some_iff.1 h
  obtain ⟨_, _, h⟩ := Option.bind_eq_some_iff.1 h
  obtain ⟨_, _, h⟩ := Option.bind_eq_some_iff.1 h
  obtain ⟨maxSuggestions, hmax, h⟩ := Option.bind_eq_some_iff.1 h
  obtain ⟨_, _, h⟩ := Option.bind_eq_some_iff.1 h
  obtain ⟨_, _, h⟩ := Option.bind_eq_some_iff.1 h
  obtain ⟨_, _, h⟩ := Option.bind_eq_some_iff.1 h
  obtain ⟨relay, hrelay, rfl⟩ := Option.map_eq_some_iff.1 h
  refine ⟨le_of_optional? hfs hmax, ?_⟩
  cases relay with
  | none => exact confined_empty
  | some r =>
    obtain ⟨v, hlookup, hv⟩ := exists_of_optional? hrelay rfl
    exact confined_of_read? (hfs.lookup hlookup) hv

theorem le_of_checkBacklog {n : Int64} {backlog : UInt32} (h : checkBacklog n = .ok backlog) : 1 ≤ backlog := by
  unfold checkBacklog at h
  split at h
  · cases h
  · rename_i hpos
    split at h
    · cases h
    · rename_i hsize
      have hone : (1 : Int64).toInt = 1 := rfl
      have hlow : 1 ≤ n.toInt := by
        rw [Int64.lt_iff_toInt_lt, hone] at hpos
        omega
      have hhigh : n.toInt < 4294967296 := Int.not_le.1 hsize
      have hfits : n.toInt.toNat < UInt32.size := by
        show n.toInt.toNat < 4294967296
        omega
      have hback : (UInt32.ofNat n.toInt.toNat).toNat = n.toInt.toNat := UInt32.toNat_ofNat_of_lt hfits
      rw [← Except.ok.inj h, UInt32.le_iff_toNat_le, hback]
      show 1 ≤ n.toInt.toNat
      omega

/-- Settings that a file gives can be written. -/
theorem storable_of_read? {content : String} {f : SettingsFile} (h : SettingsFile.read? content = some f) {s : Settings}
    (hs : Merged f .empty s) : s.Storable := by
  obtain ⟨hmax, hrelay⟩ := le_of_read? h
  obtain ⟨ip, _, heq⟩ := exists_of_map_eq_ok hs.relay
  refine { maxSuggestions := ?_, connectTimeout := ?_, exchangeTimeout := ?_, idleTimeout := ?_, maxHeadBytes := ?_,
           previewBytes := ?_, backlog := ?_, dataDirectory := ?_ }
  · rw [hs.maxSuggestions]
    exact getD_le hmax (by decide)
  · rw [← heq]
    exact getD_le hrelay.connectTimeout (by decide)
  · rw [← heq]
    exact getD_le hrelay.exchangeTimeout (by decide)
  · rw [← heq]
    exact getD_le hrelay.idleTimeout (by decide)
  · rw [← heq]
    exact getD_le hrelay.maxHeadBytes (by decide)
  · rw [← heq]
    exact getD_le hrelay.previewBytes (by decide)
  · have hbacklog := hs.backlog
    unfold backlogOf at hbacklog
    split at hbacklog
    · exact le_of_checkBacklog hbacklog
    · rw [← Except.ok.inj hbacklog]
      decide
  · intro d hd
    rw [hs.dataDirectory] at hd
    have hfilter := (Option.filter_eq_some_iff.1 hd).2
    simpa using hfilter

/-! ## Bringing up to date -/

theorem refresh_of_read? {content : String} {f : SettingsFile} (h : SettingsFile.read? content = some f) :
    refresh content = (merge f .empty).map text := by
  rw [refresh, h]

theorem load_of_read? {content : String} {f : SettingsFile} (h : SettingsFile.read? content = some f) (path : String)
    (env : Environment) : load path (some (Utf8.bytes content)) env = merge f env := by
  rw [load, Utf8.bytes, Utf8.string?_encode, String.ofList_toList]
  simp only [h]

/-- **Settings survive their own file**: what is written is read and merged as the settings that were written, and bringing
a file up to date changes neither what it means in any environment nor, a second time, the file. -/
theorem refresh_keeps :
    (∀ s : Settings, s.Storable → ∃ f, SettingsFile.read? s.text = some f ∧ merge f .empty = .ok s) ∧
      ∀ content refreshed, refresh content = .ok refreshed →
        (∀ path env, load path (some (Utf8.bytes refreshed)) env = load path (some (Utf8.bytes content)) env) ∧
          refresh refreshed = .ok refreshed := by
  constructor
  · intro s h
    exact ⟨s.file, SettingsFile.read?_text h.toBounded, (merged_file h).merge_eq⟩
  · intro content refreshed h
    unfold refresh at h
    split at h
    · cases h
    · rename_i f hf
      obtain ⟨s, hs, rfl⟩ := exists_of_map_eq_ok h
      -- the old file and the new one are both merged into the same settings
      have hmerged := merged_of_merge hs
      have hstorable := storable_of_read? hf hmerged
      have hread := SettingsFile.read?_text hstorable.toBounded
      have hfile := merged_file hstorable
      constructor
      · intro path env
        rw [load_of_read? hread, load_of_read? hf, hfile.merge_congr hmerged env]
      · rw [refresh_of_read? hread, hfile.merge_eq]
        rfl

/-- Settings with the greatest and least numbers, addresses with gaps, and texts that need each of the four spellings. -/
def awkward : Settings where
  bind := .v6 ⟨[0xfe80, 0, 0, 1, 0, 0, 0, 1], rfl⟩ 3 65535
  backlog := 4294967295
  firstQueryId := Int64.minValue
  maxSuggestions := maxNumber
  dataDirectory := some " \"\x27\\\n\r\n\x00\x7f é # b"
  service := .v6 ⟨[0, 0, 0, 0, 0, 0xffff, 0x7f00, 1], rfl⟩ 0 0
  log :=
    { level := "\"\"\"\n\x27\x27\x27", fileEnabled := true, fileDirectory := "", rotation := .never, fileStem := "\"" }
  relay :=
    { listenIp := .v6 ⟨[0, 0, 0, 0, 0, 0, 0, 0], rfl⟩, connectTimeout := maxNumber, exchangeTimeout := 0, idleTimeout := 1,
      maxHeadBytes := maxNumber, previewBytes := 0, captureFile := some "\x27\x27\x27\n\\" }

theorem storable_awkward : awkward.Storable where
  maxSuggestions := Nat.le_refl _
  connectTimeout := Nat.le_refl _
  exchangeTimeout := by decide
  idleTimeout := by decide
  maxHeadBytes := Nat.le_refl _
  previewBytes := by decide
  backlog := by decide
  dataDirectory := by
    rintro _ ⟨⟩
    decide

/-- A file by hand: a number in base 16, a dotted key, a remark, and a name in capitals. -/
def handwritten : String :=
  "backlog = 0x1F\nproxy.connect_timeout_ms = 1_000 # é\n[logging]\nfile_rotation = \x27HOURLY\x27\n"

/-- What that file means. -/
def ofHandwritten : Settings :=
  { standard with
    backlog := 31
    log := { LogSettings.standard with rotation := .hourly }
    relay := { RelaySettings.standard with connectTimeout := 1000 } }

theorem refresh_keeps_awkward :
    awkward.Storable ∧ (∃ f, SettingsFile.read? awkward.text = some f ∧ merge f .empty = .ok awkward) ∧
      refresh handwritten = .ok ofHandwritten.text ∧
      (∀ path env, load path (some (Utf8.bytes ofHandwritten.text)) env = load path (some (Utf8.bytes handwritten)) env) ∧
      refresh ofHandwritten.text = .ok ofHandwritten.text := by
  have hrefresh : refresh handwritten = .ok ofHandwritten.text := by decide +kernel
  exact ⟨storable_awkward, refresh_keeps.1 awkward storable_awkward, hrefresh, refresh_keeps.2 _ _ hrefresh⟩

end Settings
end SearchTelemetry
