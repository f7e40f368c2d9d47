import SearchTelemetry.Proofs.Json.Canonical
import SearchTelemetry.Proofs.Json.Records
/-!
# Json.Printed — values that are written are read back

A value whose numbers are whole is read back from its text, with the fields of every object put in order, if the reader lets
brackets nest as deep as they do in it (`reads_chars`).  A record's own fields are read back in the order in which they are
written (`strict?_bytes_sorted`), and so the record as it is if the fields within them were in order before
(`strict?_bytes`).  If brackets nest too deep in them, nothing is read (`strict?_bytes_of_deep`).  An object or an array is
read back as the record that it is (`strict?_bytes_of_ofValue?`).
-/
namespace SearchTelemetry
namespace Json

open Reader

/-! ## Beginnings -/

/-- Behind blanks a part is read as it is with them. -/
theorem Reader.Reads.of_skipSpace {depth : Nat} {bs rest : List UInt8} {p : Part} (h : Reads depth bs p rest) :
    Reads depth (skipSpace bs) p rest := by
  have hname : ∀ bs, fieldName (skipSpace bs) = fieldName bs := fun bs => by
    rw [fieldName, fieldName, skipSpace_skipSpace]
  induction h with
  | scalar h => exact .scalar (by rwa [skipSpace_skipSpace])
  | noItems h hr => exact .noItems (by rwa [skipSpace_skipSpace]) hr
  | array h hr => exact .array (by rwa [skipSpace_skipSpace]) hr
  | noFields h hr => exact .noFields (by rwa [skipSpace_skipSpace]) hr
  | object h hr => exact .object (by rwa [skipSpace_skipSpace]) hr
  | lastItem _ hr ih => exact .lastItem ih hr
  | nextItem _ hr hvs ih => exact .nextItem ih hr hvs
  | lastField hn hv hr => exact .lastField (by rwa [hname]) hv hr
  | nextField hn hv hr hfs => exact .nextField (by rwa [hname]) hv hr hfs

theorem fieldName_stringChars (name : String) (rest : List UInt8) :
    fieldName (Utf8.encode (stringChars name) ++ 0x3A :: rest) = some (name, rest) := by
  obtain ⟨bs, hbs, hs⟩ := string_stringChars name (0x3A :: rest)
  rw [hbs]
  exact fieldName_eq_some_iff.2 ⟨bs, 0x3A :: rest, rfl, hs, rfl⟩

theorem isSpace_of_starts_number {b : UInt8} (h : b = 0x2D ∨ isDigit b = true) : isSpace b = false := by
  rcases h with rfl | h
  · rfl
  · have hd : 0x30 ≤ b ∧ b ≤ 0x39 := by simpa [isDigit] using h
    have hne : ∀ c : UInt8, c < 0x30 → (b == c) = false := fun c hc => by
      rw [beq_eq_false_iff_ne]
      rintro rfl
      exact absurd hd.1 (by simpa using hc)
    simp [isSpace, hne]

theorem reads_number {n : Number} (hn : n.IsWhole) (depth : Nat) {rest : List UInt8} (h : StopsAt goesOn rest) :
    Reads depth (Utf8.encode n.chars ++ rest) (.value (.number n)) rest := by
  obtain ⟨b, tail, hb, hstart⟩ := exists_encode_chars hn
  have hnumber := number_chars h hn
  rw [hb, List.cons_append] at hnumber ⊢
  refine .scalar ?_
  rw [skipSpace_cons (isSpace_of_starts_number hstart), scalar_number _ hstart, hnumber]
  rfl

theorem reads_string (s : String) (depth : Nat) (rest : List UInt8) :
    Reads depth (Utf8.encode (stringChars s) ++ rest) (.value (.string s)) rest := by
  obtain ⟨bs, hbs, hs⟩ := string_stringChars s rest
  rw [hbs]
  refine .scalar ?_
  rw [skipSpace_cons (by decide), scalar_string, hs]
  rfl

theorem stopsAt_cons {b : UInt8} (hb : goesOn b = false) (rest : List UInt8) : StopsAt goesOn (b :: rest) := by
  intro c hc
  obtain rfl : b = c := by simpa using hc
  exact hb

/-! ## Values -/

mutual

/-- A value with the fields of every object in order, as it comes back from its text. -/
def Value.sorted : Value → Value
  | .null => .null
  | .bool b => .bool b
  | .number n => .number n
  | .string s => .string s
  | .array vs => .array (sortedItems vs)
  | .object fs => .object (Fields.ofList (sortedFields fs))

/-- The items of an array, each of them with its fields in order. -/
def sortedItems : List Value → List Value
  | [] => []
  | v :: vs => v.sorted :: sortedItems vs

/-- Fields as they stand, the value of each of them with its fields in order. -/
def sortedFields : List (String × Value) → List (String × Value)
  | [] => []
  | (k, v) :: fs => (k, v.sorted) :: sortedFields fs

end

mutual

/-- A value with its fields in order stays as it is. -/
theorem Value.sorted_of_inOrder : ∀ {v : Value}, v.InOrder → v.sorted = v
  | .null, _ | .bool _, _ | .number _, _ | .string _, _ => rfl
  | .array vs, h => congrArg Value.array (sortedItems_of_inOrder h.2)
  | .object fs, h => by rw [Value.sorted, sortedFields_of_inOrder h.2, Fields.ofList_of_ordered h.1]

theorem sortedItems_of_inOrder : ∀ {vs : List Value}, AllItems Value.IsOrdered vs → sortedItems vs = vs
  | [], _ => rfl
  | v :: vs, h => by rw [sortedItems, Value.sorted_of_inOrder h.1, sortedItems_of_inOrder h.2]

theorem sortedFields_of_inOrder : ∀ {fs : List (String × Value)}, AllFields Value.IsOrdered fs → sortedFields fs = fs
  | [], _ => rfl
  | (k, v) :: fs, h => by rw [sortedFields, Value.sorted_of_inOrder h.1, sortedFields_of_inOrder h.2]

end

mutual

/-- **A value that is written is read back** with its fields in order, where brackets may nest as deep as in it. -/
theorem reads_chars : ∀ v : Value, v.Whole → ∀ {depth : Nat} {rest : List UInt8}, v.nesting ≤ depth →
    StopsAt goesOn rest → Reads depth (Utf8.encode v.chars ++ rest) (.value v.sorted) rest
  | .null, _, _, _, _, _ => .scalar rfl
  | .bool true, _, _, _, _, _ => .scalar rfl
  | .bool false, _, _, _, _, _ => .scalar rfl
  | .number n, hw, depth, _, _, h => reads_number hw depth h
  | .string s, _, depth, rest, _, _ => reads_string s depth rest
  | .array [], _, depth + 1, _, _, _ => .noItems rfl rfl
  | .array (v :: vs), hw, depth + 1, rest, hd, _ => by
    obtain ⟨hdv, hdvs⟩ := Nat.max_le.1 (Nat.le_of_succ_le_succ hd)
    have hitems := reads_itemsChars vs hw.2.2 hdvs fun h => reads_chars v hw.2.1 hdv h
    have hbytes : Utf8.encode (Value.array (v :: vs)).chars ++ rest =
        0x5B :: (Utf8.encode v.chars ++ (Utf8.encode (itemsChars vs) ++ rest)) := by
      rw [Value.chars, Utf8.encode_append, Utf8.encode_cons]
      simp [Utf8.encodeChar]
    rw [hbytes]
    exact .array (skipSpace_cons (by decide) _) (hitems rest).of_skipSpace
  | .object [], _, depth + 1, _, _, _ => .noFields rfl rfl
  | .object ((k, v) :: fs), hw, depth + 1, rest, hd, _ => by
    obtain ⟨hdv, hdfs⟩ := Nat.max_le.1 (Nat.le_of_succ_le_succ hd)
    have hfields := reads_fieldsChars fs hw.2.2 hdfs k fun h => reads_chars v hw.2.1 hdv h
    have hbytes : Utf8.encode (Value.object ((k, v) :: fs)).chars ++ rest =
        0x7B :: (Utf8.encode (stringChars k) ++ 0x3A ::
          (Utf8.encode v.chars ++ (Utf8.encode (fieldsChars fs) ++ rest))) := by
      rw [Value.chars, Utf8.encode_append, Utf8.encode_append, Utf8.encode_cons, Utf8.encode_cons]
      simp [Utf8.encodeChar]
    rw [hbytes]
    exact .object (skipSpace_cons (by decide) _) (hfields rest).of_skipSpace

/-- The items of an array are read back behind the first of them. -/
theorem reads_itemsChars : ∀ vs : List Value, AllItems Value.IsWhole vs → ∀ {depth : Nat} {v : Value},
    nestingItems vs ≤ depth → (∀ {rest : List UInt8}, StopsAt goesOn rest →
      Reads depth (Utf8.encode v.chars ++ rest) (.value v.sorted) rest) → ∀ rest,
    Reads depth (Utf8.encode v.chars ++ (Utf8.encode (itemsChars vs) ++ rest)) (.items (sortedItems (v :: vs))) rest
  | [], _, _, _, _, hv, rest => .lastItem (hv (stopsAt_cons (by decide) rest)) rfl
  | v' :: vs, hw, depth, v, hd, hv, rest => by
    obtain ⟨hdv, hdvs⟩ := Nat.max_le.1 hd
    have hitems := reads_itemsChars vs hw.2 hdvs fun h => reads_chars v' hw.1 hdv h
    have hbytes : Utf8.encode (itemsChars (v' :: vs)) ++ rest =
        0x2C :: (Utf8.encode v'.chars ++ (Utf8.encode (itemsChars vs) ++ rest)) := by
      rw [itemsChars, Utf8.encode_append, Utf8.encode_cons]
      simp [Utf8.encodeChar]
    rw [hbytes]
    exact .nextItem (hv (stopsAt_cons (by decide) _)) (skipSpace_cons (by decide) _) (hitems rest)

/-- The fields of an object are read back behind the value of the first of them. -/
theorem reads_fieldsChars : ∀ fs : List (String × Value), AllFields Value.IsWhole fs → ∀ {depth : Nat} {v : Value},
    nestingFields fs ≤ depth → ∀ k : String, (∀ {rest : List UInt8}, StopsAt goesOn rest →
      Reads depth (Utf8.encode v.chars ++ rest) (.value v.sorted) rest) → ∀ rest,
    Reads depth (Utf8.encode (stringChars k) ++ 0x3A :: (Utf8.encode v.chars ++
      (Utf8.encode (fieldsChars fs) ++ rest))) (.fields (sortedFields ((k, v) :: fs))) rest
  | [], _, _, _, _, k, hv, rest =>
    .lastField (fieldName_stringChars k _) (hv (stopsAt_cons (by decide) rest)) rfl
  | (k', v') :: fs, hw, depth, v, hd, k, hv, rest => by
    obtain ⟨hdv, hdfs⟩ := Nat.max_le.1 hd
    have hfields := reads_fieldsChars fs hw.2 hdfs k' fun h => reads_chars v' hw.1 hdv h
    have hbytes : Utf8.encode (fieldsChars ((k', v') :: fs)) ++ rest =
        0x2C :: (Utf8.encode (stringChars k') ++ 0x3A ::
          (Utf8.encode v'.chars ++ (Utf8.encode (fieldsChars fs) ++ rest))) := by
      rw [fieldsChars, Utf8.encode_append, Utf8.encode_append, Utf8.encode_cons, Utf8.encode_cons]
      simp [Utf8.encodeChar]
    rw [hbytes]
    exact .nextField (fieldName_stringChars k _) (hv (stopsAt_cons (by decide) _)) (skipSpace_cons (by decide) _)
      (hfields rest)

end

/-! ## Records -/

/-- Bytes begin with the same fields, however deep brackets may nest. -/
theorem Reader.Reads.fields_unique {depth depth' : Nat} {bs rest rest' : List UInt8} {fs fs' : Fields}
    (h : Reads depth bs (.fields fs) rest) (h' : Reads depth' bs (.fields fs') rest') : fs = fs' := by
  have hloop := (h.mono (Nat.le_max_left depth depth')).loopReads bs.length (by omega) []
  have hloop' := (h'.mono (Nat.le_max_right depth depth')).loopReads bs.length (by omega) []
  rw [hloop] at hloop'
  simpa using (Prod.mk.inj (Option.some.inj hloop')).1

namespace Written

/-- The fields of an object are read back, where brackets may nest as deep as in them. -/
theorem reads_bytes_object {f : String × Value} {fs : List (String × Value)} (hw : AllFields Value.IsWhole (f :: fs))
    {depth : Nat} (hd : nestingFields (f :: fs) ≤ depth) : ∃ r,
    skipSpace (Value.object (f :: fs)).bytes = 0x7B :: r ∧
      Reads depth (skipSpace r) (.fields (sortedFields (f :: fs))) [] := by
  obtain ⟨k, v⟩ := f
  obtain ⟨hdv, hdfs⟩ := Nat.max_le.1 hd
  have hfields := reads_fieldsChars fs hw.2 hdfs k fun h => reads_chars v hw.1 hdv h
  refine ⟨_, ?_, (hfields []).of_skipSpace⟩
  have hbytes : (Value.object ((k, v) :: fs)).bytes =
      0x7B :: (Utf8.encode (stringChars k) ++ 0x3A :: (Utf8.encode v.chars ++ (Utf8.encode (fieldsChars fs) ++ []))) := by
    rw [Value.bytes, Value.chars, Utf8.encode_append, Utf8.encode_append, Utf8.encode_cons, Utf8.encode_cons]
    simp [Utf8.encodeChar]
  rw [hbytes]
  exact skipSpace_cons (by decide) _

/-- **A record's fields are read back** in the order in which they are written, with the fields within each of them in order,
if brackets nest no deeper in it than the reader lets them. -/
theorem strict?_bytes_sorted {f : String × Value} {fs : List (String × Value)}
    (hw : AllFields Value.IsWhole (f :: fs)) (hd : nestingFields (f :: fs) ≤ maxDepth - 1) :
    strict? (Value.object (f :: fs)).bytes = some (.named (sortedFields (f :: fs))) := by
  obtain ⟨r, hr, hreads⟩ := reads_bytes_object hw hd
  exact strict?_eq_some_iff.2 ⟨[], .fields hr hreads, rfl⟩

/-- A record is read back as it is written if the fields within each of its fields are in order. -/
theorem strict?_bytes {f : String × Value} {fs : List (String × Value)} (hw : AllFields Value.IsWhole (f :: fs))
    (ho : AllFields Value.IsOrdered (f :: fs)) (hd : nestingFields (f :: fs) ≤ maxDepth - 1) :
    strict? (Value.object (f :: fs)).bytes = some (.named (f :: fs)) := by
  rw [strict?_bytes_sorted hw hd, sortedFields_of_inOrder ho]

/-- Something holds of the values in a record and of all values in them. -/
def All (P : Value → Prop) : Written → Prop
  | named fs => AllFields P fs
  | listed vs => AllItems P vs

/-- **A record is read back from the text of its value**, if brackets nest no deeper in it than the reader lets them. -/
theorem strict?_bytes_of_ofValue? {v : Value} {w : Written} (h : ofValue? v = some w) (hw : w.All Value.IsWhole)
    (ho : w.All Value.IsOrdered) (hd : v.nesting ≤ maxDepth) : strict? v.bytes = some w := by
  cases v with
  | null | bool _ | number _ | string _ => cases h
  | array vs =>
    obtain rfl := Option.some.inj h
    cases vs with
    | nil => exact strict?_eq_some_iff.2 ⟨[], .noItems rfl rfl, rfl⟩
    | cons v vs =>
      obtain ⟨hdv, hdvs⟩ := Nat.max_le.1 (Nat.le_of_succ_le_succ hd)
      have hitems := reads_itemsChars vs hw.2 hdvs fun h => reads_chars v hw.1 hdv h
      rw [sortedItems_of_inOrder ho] at hitems
      have hbytes : (Value.array (v :: vs)).bytes =
          0x5B :: (Utf8.encode v.chars ++ (Utf8.encode (itemsChars vs) ++ [])) := by
        rw [Value.bytes, Value.chars, Utf8.encode_append, Utf8.encode_cons]
        simp [Utf8.encodeChar]
      rw [hbytes]
      exact strict?_eq_some_iff.2 ⟨[], .items (skipSpace_cons (by decide) _) (hitems []).of_skipSpace, rfl⟩
  | object fs =>
    obtain rfl := Option.some.inj h
    cases fs with
    | nil => exact strict?_eq_some_iff.2 ⟨[], .noFields rfl rfl, rfl⟩
    | cons f fs => exact strict?_bytes hw ho (Nat.le_of_succ_le_succ hd)

/-- **No record is read from a text in which brackets nest deeper.** -/
theorem strict?_bytes_of_deep {f : String × Value} {fs : List (String × Value)}
    (hw : AllFields Value.IsWhole (f :: fs)) (ho : AllFields Value.IsOrdered (f :: fs))
    (hd : maxDepth - 1 < nestingFields (f :: fs)) : strict? (Value.object (f :: fs)).bytes = none := by
  obtain ⟨r, hr, hreads⟩ := reads_bytes_object hw (Nat.le_refl _)
  rw [sortedFields_of_inOrder ho] at hreads
  rw [Option.eq_none_iff_forall_ne_some]
  intro w hs
  obtain ⟨rest, hbegins, -⟩ := strict?_eq_some_iff.1 hs
  cases hbegins with
  | noFields h hr' =>
    obtain rfl := (List.cons.inj (hr.symm.trans h)).2
    exact hreads.fields_ne _ hr'
  | fields h hr' =>
    obtain rfl := (List.cons.inj (hr.symm.trans h)).2
    have hle := hr'.nesting_le
    rw [← hreads.fields_unique hr'] at hle
    exact absurd hle (Nat.not_le.2 hd)
  | noItems h | items h => exact absurd (List.cons.inj (hr.symm.trans h)).1 (by decide)

end Written
end Json
end SearchTelemetry
