import SearchTelemetry.Proofs.Checks
import SearchTelemetry.Proofs.Command
import SearchTelemetry.Proofs.Instant.Strict
/-!
# Resubmitted — records that are sent as reports

What the service tells of a search report reads as a report again, the time of its arrival left out, and the time of the query
in the text in which it is kept.  That text is in a form for clients just if the year has four digits: then the report is
accepted once more, with the same record but for its arrival, and otherwise it is refused (`timestamp_text_iff`).
-/
namespace SearchTelemetry

open Json (Value Written nestingFields)
open Json.Reader (maxDepth)

/-! ## A record as a report -/

namespace SearchRecord

/-- The report that a record is, to a reader of reports. -/
def toReport (r : SearchRecord) : SearchReport where
  queryId := some r.queryId
  rawQuery := r.rawQuery
  results := r.results
  clicked := r.clicked.map fun n => Int64.ofNat n.toNat
  queryTimestamp := some r.queryTimestamp.text

theorem strict?_bytes (r : SearchRecord) : Written.strict? (Value.object r.toFields).bytes = some (.named r.toFields) := by
  obtain ⟨hw, ho⟩ := JournalEntry.allFields_searchRecord r
  have hclicked := nesting_ofOption (f := fun i : UInt64 => .nat i.toNat) (fun _ => rfl) r.clicked
  refine Written.strict?_bytes_of_ofValue? rfl hw ho ?_
  simp [toFields, Value.nesting, nestingFields, nestingItems_strings, hclicked, Value.int, instantValue, maxDepth]

theorem int64?_nat {n : Nat} (h : n < 2 ^ 63) : (Value.nat n).int64? = some (Int64.ofNat n) := by
  have hvalue : (Int64.ofNat n).toInt = n := Int64.toInt_ofNat_of_lt h
  rw [← int64?_int (Int64.ofNat n), hvalue]
  rfl

/-- **A record is read as a report.** -/
theorem read?_bytes {r : SearchRecord} (h : ∀ n ∈ r.clicked, n.toNat < 2 ^ 63) :
    SearchReport.read? (Value.object r.toFields).bytes = some r.toReport := by
  have hlenient := Written.lenient?_eq_of_strict? r.strict?_bytes SearchReport.fieldNames
  have hid := optional?_ofOption int64?_int nofun (some r.queryId)
  have hclicked : (Value.ofOption (fun i : UInt64 => .nat i.toNat) r.clicked).optional? Value.int64? =
      some (r.clicked.map fun n => Int64.ofNat n.toNat) := by
    cases hn : r.clicked with
    | none => rfl
    | some n => exact congrArg (Option.map some) (int64?_nat (h n hn))
  have htime := optional?_ofOption (f := Value.string) (g := Value.string?) (fun _ => rfl) nofun
    (some r.queryTimestamp.text)
  have hresults : SearchReport.strings? (.array (r.results.map .string)) = some r.results := mapM_string? r.results
  simp only [Value.ofOption] at hid htime
  rw [SearchReport.read?, hlenient]
  simp [Written.onlyKnown, SearchReport.fieldNames, toFields, SearchReport.ofWritten?, Written.fits, Written.fieldOr?,
    Written.field?, guard, hid, hclicked, htime, hresults, instantValue, Value.string?, toReport]

end SearchRecord

/-! ## Sending it again -/

theorem timestamp_text {t : Instant} (h : t.Valid) (hy : t.HasFourDigitYear) : timestamp t.text = .ok t := by
  have hread := Instant.read?_chars h
  rw [if_pos hy] at hread
  rw [timestamp, Instant.text, String.toList_ofList, hread]

theorem timestamp_text_of_not {t : Instant} (h : t.Valid) (hy : ¬t.HasFourDigitYear) :
    ∃ message, timestamp t.text = .error (.invalidArgument message) := by
  have hread := Instant.read?_chars h
  rw [if_neg hy] at hread
  rw [timestamp, Instant.text, String.toList_ofList, hread]
  exact ⟨_, rfl⟩

theorem timestamp_text_eq_ok_iff {t t' : Instant} (h : t.Valid) :
    timestamp t.text = .ok t' ↔ t' = t ∧ t.HasFourDigitYear := by
  by_cases hy : t.HasFourDigitYear
  · rw [timestamp_text h hy]
    simp [hy, eq_comm]
  · obtain ⟨message, herror⟩ := timestamp_text_of_not h hy
    rw [herror]
    simp [hy]

namespace SearchReport

variable {now now' : Instant} {r : SearchReport} {record record' : SearchRecord}

theorem Clicks.lt {results : List String} {i : Option Int64} {n : UInt64} (h : Clicks results i (some n)) :
    n.toNat < 2 ^ 63 := by
  cases h with
  | @index i _ heq hlt =>
    have := i.toInt_lt
    omega

theorem Clicks.toReport {results : List String} {i : Option Int64} {n : Option UInt64} (h : Clicks results i n) :
    Clicks results (n.map fun n => Int64.ofNat n.toNat) n := by
  cases n with
  | none => exact .absent
  | some n =>
    have hn := h.lt
    cases h with
    | index _ hlt => exact .index (Int64.toInt_ofNat_of_lt hn) hlt

theorem Clicks.unique {results : List String} {i : Option Int64} {n n' : Option UInt64} (h : Clicks results i n)
    (h' : Clicks results i n') : n = n' := by
  have heq := (checkClicked_eq_ok_iff.2 h).symm.trans (checkClicked_eq_ok_iff.2 h')
  exact Except.ok.inj heq

/-- The record of a record. -/
theorem isRecord_toReport_iff (h : r.IsRecord now record) (hv : record.queryTimestamp.Valid) :
    record.toReport.IsRecord now' record' ↔
      record' = { record with receivedAt := now' } ∧ record.queryTimestamp.HasFourDigitYear := by
  have hclicked : Clicks record.results record.toReport.clicked record.clicked := by
    rw [h.results]
    exact h.clicked.toReport
  constructor
  · rintro ⟨hid, hquery, hresults, hclicked', ⟨raw, hraw, ht⟩, hnow⟩
    obtain rfl := Option.some.inj hraw
    obtain ⟨htime, hyear⟩ := (timestamp_text_eq_ok_iff hv).1 ht
    refine ⟨?_, hyear⟩
    cases record' with
    | mk id query results clicked time received =>
      obtain rfl := Option.some.inj hid
      cases hquery
      cases hresults
      cases htime
      cases hnow
      cases hclicked'.unique hclicked
      rfl
  · rintro ⟨rfl, hyear⟩
    exact ⟨rfl, rfl, rfl, hclicked, ⟨_, rfl, timestamp_text hv hyear⟩, rfl⟩

end SearchReport

/-- **The text of a time that was accepted is accepted again if its year has four digits**, and then it is the same time.
So is a report that is sent as it is told. -/
theorem timestamp_text_iff {raw : String} {t : Instant} (h : timestamp raw = .ok t) :
    (∀ t', timestamp t.text = .ok t' ↔ t' = t ∧ t.HasFourDigitYear) ∧
      ∀ (r : SearchReport) (now : Instant) (record : SearchRecord), r.queryTimestamp = some raw →
        r.validate now = .ok record →
        ∃ again, SearchReport.read? (Value.object record.toFields).bytes = some again ∧
          ∀ now' record', again.validate now' = .ok record' ↔
            record' = { record with receivedAt := now' } ∧ t.HasFourDigitYear := by
  have hv := valid_of_timestamp h
  refine ⟨fun t' => timestamp_text_eq_ok_iff hv, fun r now record hraw hvalidate => ?_⟩
  have hrecord := SearchReport.validate_eq_ok_iff.1 hvalidate
  obtain ⟨raw', hraw', ht⟩ := hrecord.queryTimestamp
  obtain rfl : raw = raw' := Option.some.inj (hraw.symm.trans hraw')
  obtain rfl : t = record.queryTimestamp := Except.ok.inj (h.symm.trans ht)
  have hclicked : ∀ n ∈ record.clicked, n.toNat < 2 ^ 63 := fun n hn => by
    have hclicks := hrecord.clicked
    rw [Option.mem_def.1 hn] at hclicks
    exact hclicks.lt
  refine ⟨record.toReport, SearchRecord.read?_bytes hclicked, fun now' record' => ?_⟩
  rw [SearchReport.validate_eq_ok_iff]
  exact SearchReport.isRecord_toReport_iff hrecord hv

/-- The leap second at the end of 2016, told in New York. -/
theorem timestamp_text_leap_second : timestamp "2016-12-31T18:59:60-05:00" = .ok ⟨1483228799, 1000000000⟩ ∧
    timestamp (Instant.text ⟨1483228799, 1000000000⟩) = .ok ⟨1483228799, 1000000000⟩ := by
  have hread : timestamp "2016-12-31T18:59:60-05:00" = .ok ⟨1483228799, 1000000000⟩ := by decide +kernel
  exact ⟨hread, ((timestamp_text_iff hread).1 _).2 ⟨rfl, by decide +kernel⟩⟩

/-- The last hour of 9999 an hour behind UTC, where it is the year 10000. -/
theorem timestamp_text_past_9999 : timestamp "9999-12-31T23:59:59-01:00" = .ok ⟨253402304399, 0⟩ ∧
    Instant.text ⟨253402304399, 0⟩ = "+10000-01-01T00:59:59Z" ∧
    ∃ message, timestamp "+10000-01-01T00:59:59Z" = .error (.invalidArgument message) := by
  refine ⟨by decide +kernel, by decide +kernel, ?_⟩
  have hnone : Instant.read? "+10000-01-01T00:59:59Z".toList = none := by decide +kernel
  rw [timestamp, hnone]
  exact ⟨_, rfl⟩

end SearchTelemetry
