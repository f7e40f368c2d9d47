import SearchTelemetry.Proofs.Checks
import SearchTelemetry.Proofs.Journal.Legible
/-!
# Report — what a report holds that is read and found to be as it should be

Metrics that are read nest no deeper than the reader lets them, with the fields of each object in order
(`MetricsReport.inOrder_of_read?`), and the record of a report has its entries and instants in range.
-/
namespace SearchTelemetry

open Json (Value Written nestingItems nestingFields)
open Json.Reader (maxDepth Reads)

/-! ## Metrics -/

namespace MetricsReport

/-- How deep brackets nest in the text of a report: those of its entries, of their list, and of the object around it if there
is one. -/
def nesting : MetricsReport → Nat
  | wrapped metrics => nestingItems metrics + 2
  | bare metrics => nestingItems metrics + 1

theorem inOrder_of_named {fs : Json.Fields} {report : MetricsReport} (h : ofWritten? (.named fs) = some report)
    (hd : nestingFields fs ≤ maxDepth - 1) (ho : ∀ f ∈ fs, f.2.InOrder) :
    report.nesting ≤ maxDepth ∧ ∀ v ∈ report.entries, v.InOrder := by
  obtain ⟨metrics, hm, rfl⟩ := Option.map_eq_some_iff.1 h
  obtain ⟨f, hf, hv⟩ : ∃ f ∈ fs, f.2 = .array metrics := by
    unfold Written.required? at hm
    split at hm
    · rename_i v hfield
      simp only [Written.field?] at hfield
      split at hfield
      · cases hfield
      · rename_i name v' hfilter
        obtain rfl : v' = v := by simpa using hfield
        have hmem : (name, v') ∈ fs := (List.mem_filter.1 (hfilter ▸ List.mem_singleton_self _)).1
        unfold Value.array? at hm
        split at hm
        · exact ⟨_, hmem, by rw [Option.some.inj hm]⟩
        · cases hm
      · cases hfield
    · cases hm
  have hnesting := Json.nestingFields_le_iff.1 hd f hf
  have horder := ho f hf
  rw [hv] at hnesting horder
  exact ⟨Nat.succ_le_succ hnesting, Json.allItems_iff.1 horder.2⟩

/-- **A report that is read** nests no deeper than the reader lets it, and its fields are in order. -/
theorem inOrder_of_read? {bs : List UInt8} {report : MetricsReport} (h : read? bs = some report) :
    report.nesting ≤ maxDepth ∧ ∀ v ∈ report.entries, v.InOrder := by
  obtain ⟨w, hw, h⟩ := Option.bind_eq_some_iff.1 h
  obtain ⟨rest, hbegins, -⟩ := Written.strict?_eq_some_iff.1 hw
  cases hbegins with
  | noFields => cases h
  | fields _ hr => exact inOrder_of_named h hr.nesting_le hr.inOrder
  | noItems =>
    obtain rfl := Option.some.inj h
    exact ⟨by decide, by simp [entries]⟩
  | items _ hr =>
    obtain rfl := Option.some.inj h
    exact ⟨Nat.succ_le_succ hr.nesting_le, hr.inOrder⟩

theorem of_validate {now : Instant} {component : String} {report : MetricsReport} {record : MetricsRecord}
    (h : report.validate now component = .ok record) :
    record.receivedAt = now ∧ record.metrics.map .object = report.entries :=
  ⟨(validate_eq_ok_iff.1 h).receivedAt, (validate_eq_ok_iff.1 h).metrics⟩

end MetricsReport

/-! ## Search reports and feedback -/

theorem valid_of_timestamp {raw : String} {t : Instant} (h : timestamp raw = .ok t) : t.Valid := by
  unfold timestamp at h
  split at h
  · rename_i t' hread
    obtain rfl := Except.ok.inj h
    exact Instant.valid_of_read? hread
  · cases h

theorem SearchReport.valid_of_validate {now : Instant} (hnow : now.Valid) {report : SearchReport} {record : SearchRecord}
    (h : report.validate now = .ok record) : record.queryTimestamp.Valid ∧ record.receivedAt.Valid := by
  obtain ⟨-, -, -, -, ⟨raw, -, ht⟩, rfl⟩ := validate_eq_ok_iff.1 h
  exact ⟨valid_of_timestamp ht, hnow⟩

theorem FeedbackReport.valid_of_validate {now : Instant} (hnow : now.Valid) {report : FeedbackReport}
    {record : FeedbackRecord} (h : report.validate now = .ok record) : record.receivedAt.Valid := by
  obtain ⟨-, rfl⟩ := validate_eq_ok_iff.1 h
  exact hnow

end SearchTelemetry
