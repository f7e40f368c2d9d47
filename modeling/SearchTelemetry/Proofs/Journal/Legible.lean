import Mathlib.Data.Option.Basic
import SearchTelemetry.Proofs.Instant.Printed
import SearchTelemetry.Proofs.Journal.Lines
import SearchTelemetry.Proofs.Json.Printed
import SearchTelemetry.Proofs.Text.Pieces
/-!
# Journal.Legible — which entries are read back from their lines

An entry with instants in range, whole numbers and fields in order is read back from its text, whatever else is in it, as
long as brackets nest no deeper in it than the reader lets them (`legible_of_valid`); an entry in which they nest deeper is
not read at all (`ofLine?_of_deep`).  Only metrics can nest so deep.
-/
namespace SearchTelemetry

open Json (Value Written AllFields AllItems nestingFields nestingItems)

/-! ## Values -/

theorem int64?_int (i : Int64) : (Value.int i.toInt).int64? = some i := by
  have hl : -9223372036854775808 ≤ i.toInt := i.le_toInt
  have hh : i.toInt ≤ Int64.maxValue.toInt := Int64.toInt_le i
  simp [Value.int64?, Value.int, Value.int?, Option.filter, hl, hh]

/-- A natural number is read back into a word that holds it. -/
theorem unsigned?_nat {bits n : Nat} (h : n < Numeral.pow2 bits) : (Value.nat n).unsigned? bits = some n := by
  have h : (n : Int) < (Numeral.pow2 bits : Int) := by exact_mod_cast h
  simp [Value.unsigned?, Value.nat, Value.int?, Option.filter, h]

theorem mapM_string? (ss : List String) : (ss.map Value.string).mapM Value.string? = some ss :=
  Pieces.mapM_map_eq_some_iff.2 fun _ _ => rfl

theorem mapM_object? (fss : List Json.Fields) : (fss.map Value.object).mapM Value.object? = some fss :=
  Pieces.mapM_map_eq_some_iff.2 fun _ _ => rfl

theorem nestingItems_strings (ss : List String) : nestingItems (ss.map .string) = 0 :=
  Nat.le_zero.1 (Json.nestingItems_le_iff.2 fun v hv => by
    obtain ⟨s, -, rfl⟩ := List.mem_map.1 hv
    exact Nat.le_refl 0)

theorem nesting_ofOption {α : Type} {f : α → Value} (hf : ∀ a, (f a).nesting = 0) : ∀ o : Option α,
    (Value.ofOption f o).nesting = 0
  | none => rfl
  | some a => hf a

/-- A value that may be null is read back, if the others are and are not null themselves. -/
theorem optional?_ofOption_map {α β : Type} {f : α → Value} {g : Value → Option β} {h : α → β}
    (hf : ∀ a, g (f a) = some (h a)) (hn : ∀ a, f a ≠ .null) : ∀ o : Option α,
    (Value.ofOption f o).optional? g = some (o.map h)
  | none => rfl
  | some a => by
    have hnull := hn a
    have hread := hf a
    unfold Value.ofOption Value.optional?
    split
    · contradiction
    · rw [hread, Option.map_some, Option.map_some]

theorem instant?_instantValue {t : Instant} (h : t.Valid) : instant? (instantValue t) = some t := by
  simp [instant?, instantValue, Value.string?, Instant.text, Instant.relaxed?_chars h]

/-! ## Records -/

namespace SearchRecord

theorem ofWritten?_toFields {r : SearchRecord} (ht : r.queryTimestamp.Valid) (hr : r.receivedAt.Valid) :
    ofWritten? (.named r.toFields) = some r := by
  have hclicked : (Value.ofOption (fun i : UInt64 => .nat i.toNat) r.clicked).optional? (Value.unsigned? 64) =
      some (r.clicked.map UInt64.toNat) := optional?_ofOption_map (fun i => unsigned?_nat i.toNat_lt) nofun r.clicked
  have hback : (r.clicked.map UInt64.toNat).map Nat.toUInt64 = r.clicked := by
    cases r.clicked with
    | none => rfl
    | some i => simp
  have hid := int64?_int r.queryId
  have hresults : SearchReport.strings? (.array (r.results.map .string)) = some r.results := mapM_string? r.results
  have htime := instant?_instantValue ht
  have hreceived := instant?_instantValue hr
  simp [ofWritten?, toFields, Written.fits, Written.required?, Written.nullable?, Written.field?, guard, hid, hresults,
    htime, hreceived, hclicked, hback, Value.string?]

end SearchRecord

theorem FeedbackRecord.ofWritten?_toFields {r : FeedbackRecord} (hr : r.receivedAt.Valid) :
    ofWritten? (.named r.toFields) = some r := by
  have hreceived := instant?_instantValue hr
  simp [ofWritten?, toFields, Written.fits, Written.required?, Written.field?, guard, hreceived, Value.string?]

theorem MetricsRecord.ofWritten?_toFields {r : MetricsRecord} (hr : r.receivedAt.Valid) :
    ofWritten? (.named r.toFields) = some r := by
  have hmetrics : (Value.array? (.array (r.metrics.map .object))).bind (fun vs => vs.mapM Value.object?) =
      some r.metrics := mapM_object? r.metrics
  have hreceived := instant?_instantValue hr
  simp [ofWritten?, toFields, Written.fits, Written.required?, Written.field?, guard, hmetrics, hreceived, Value.string?]

/-! ## Entries -/

namespace JournalEntry

/-- The instants in an entry are in range, its numbers are whole, and its fields in order. -/
def Valid : JournalEntry → Prop
  | searchResults r => r.queryTimestamp.Valid ∧ r.receivedAt.Valid
  | feedback r => r.receivedAt.Valid
  | metrics r => r.receivedAt.Valid ∧ ∀ fs ∈ r.metrics, (Value.object fs).Whole ∧ (Value.object fs).InOrder

/-- The fields of an entry, its kind in front. -/
def fields (e : JournalEntry) : Json.Fields :=
  ("type", .string e.kind) :: e.recordFields

/-- An entry is told by its fields. -/
theorem ofKind?_recordFields : ∀ {e : JournalEntry}, e.Valid → ofKind? e.kind (.named e.recordFields) = some e
  | searchResults r, h => by simp [ofKind?, kind, recordFields, SearchRecord.ofWritten?_toFields h.1 h.2]
  | feedback r, h => by simp [ofKind?, kind, recordFields, FeedbackRecord.ofWritten?_toFields h]
  | metrics r, h => by simp [ofKind?, kind, recordFields, MetricsRecord.ofWritten?_toFields h.1]

theorem tagged?_fields : ∀ e : JournalEntry,
    (Written.named e.fields).tagged? "type" = some (e.kind, .named e.recordFields)
  | searchResults r => by simp [Written.tagged?, fields, recordFields, SearchRecord.toFields]
  | feedback r => by simp [Written.tagged?, fields, recordFields, FeedbackRecord.toFields]
  | metrics r => by simp [Written.tagged?, fields, recordFields, MetricsRecord.toFields]

theorem whole_int64 (i : Int64) : (Value.int i.toInt).Whole := by
  have hl : -9223372036854775808 ≤ i.toInt := i.le_toInt
  have hh : i.toInt < 9223372036854775808 := i.toInt_lt
  have h63 : (Numeral.pow2 63 : Int) = 9223372036854775808 := by decide
  have h64 : (Numeral.pow2 64 : Int) = 18446744073709551616 := by decide
  exact ⟨by omega, by omega⟩

theorem whole_nat {n : Nat} (h : n < Numeral.pow2 64) : (Value.nat n).Whole := by
  have h : (n : Int) < (Numeral.pow2 64 : Int) := by exact_mod_cast h
  exact ⟨by omega, h⟩

theorem whole_uint64 (i : UInt64) : (Value.nat i.toNat).Whole :=
  whole_nat i.toNat_lt

theorem inOrder_uint64 (i : UInt64) : (Value.nat i.toNat).InOrder :=
  trivial

theorem all_ofOption {α : Type} {P : Value → Prop} {f : α → Value} (hn : P .null) (hf : ∀ a, (f a).All P) :
    ∀ o : Option α, (Value.ofOption f o).All P
  | none => hn
  | some a => hf a

theorem allItems_map {α : Type} {P : Value → Prop} {f : α → Value} {as : List α} (hf : ∀ a ∈ as, (f a).All P) :
    AllItems P (as.map f) :=
  Json.allItems_iff.2 fun v hv => by
    obtain ⟨a, ha, rfl⟩ := List.mem_map.1 hv
    exact hf a ha

theorem allFields_searchRecord (r : SearchRecord) :
    AllFields Value.IsWhole r.toFields ∧ AllFields Value.IsOrdered r.toFields :=
  ⟨⟨whole_int64 r.queryId, trivial, ⟨trivial, allItems_map fun _ _ => trivial⟩,
      all_ofOption trivial whole_uint64 r.clicked, trivial, trivial, trivial⟩,
    ⟨trivial, trivial, ⟨trivial, allItems_map fun _ _ => trivial⟩,
      all_ofOption trivial inOrder_uint64 r.clicked, trivial, trivial, trivial⟩⟩

/-- All numbers in an entry are whole, and all fields in its metrics in order. -/
theorem allFields_fields : ∀ {e : JournalEntry}, e.Valid →
    AllFields Value.IsWhole e.fields ∧ AllFields Value.IsOrdered e.fields
  | searchResults r, _ =>
    ⟨⟨trivial, (allFields_searchRecord r).1⟩, ⟨trivial, (allFields_searchRecord r).2⟩⟩
  | feedback _, _ =>
    ⟨⟨trivial, trivial, trivial, trivial, trivial, trivial⟩, ⟨trivial, trivial, trivial, trivial, trivial, trivial⟩⟩
  | metrics _, h =>
    ⟨⟨trivial, trivial, ⟨trivial, allItems_map fun fs hfs => (h.2 fs hfs).1⟩, trivial, trivial⟩,
      ⟨trivial, trivial, ⟨trivial, allItems_map fun fs hfs => (h.2 fs hfs).2⟩, trivial, trivial⟩⟩

/-- **An entry is read back from its text**, if brackets nest no deeper in it than the reader lets them. -/
theorem legible_of_valid {e : JournalEntry} (h : e.Valid) (hd : e.toValue.nesting ≤ Json.Reader.maxDepth) : e.Legible := by
  obtain ⟨hw, ho⟩ := allFields_fields h
  have hstrict : Written.strict? e.text = some (.named e.fields) :=
    Written.strict?_bytes hw ho (by
      change nestingFields e.fields + 1 ≤ 127 at hd
      exact Nat.le_of_succ_le_succ hd)
  rw [Legible, ofLine?_eq, hstrict, Option.bind_some, tagged?_fields, Option.bind_some]
  exact ofKind?_recordFields h

/-- **No entry is read from a text in which brackets nest deeper.** -/
theorem ofLine?_of_deep {e : JournalEntry} (h : e.Valid) (hd : Json.Reader.maxDepth < e.toValue.nesting) :
    JournalEntry.ofLine? e.text = none := by
  obtain ⟨hw, ho⟩ := allFields_fields h
  have hstrict : Written.strict? e.text = none :=
    Written.strict?_bytes_of_deep hw ho (by
      change 127 < nestingFields e.fields + 1 at hd
      exact Nat.lt_of_succ_lt_succ hd)
  rw [ofLine?_eq, hstrict, Option.bind_none]

/-- How deep brackets nest in an entry: its own, those around its list, and what is in the list. -/
def nesting : JournalEntry → Nat
  | searchResults _ => 2
  | feedback _ => 1
  | metrics r => nestingItems (r.metrics.map .object) + 2

theorem nesting_toValue : ∀ e : JournalEntry, e.toValue.nesting = e.nesting
  | searchResults r => by
    have hclicked := nesting_ofOption (f := fun i : UInt64 => .nat i.toNat) (fun _ => rfl) r.clicked
    simp [toValue, recordFields, SearchRecord.toFields, Value.nesting, nestingFields, nestingItems_strings, hclicked,
      Value.int, instantValue, nesting]
  | feedback r => rfl
  | metrics r => by
    simp [toValue, recordFields, MetricsRecord.toFields, Value.nesting, nestingFields, instantValue, nesting]

end JournalEntry
end SearchTelemetry
