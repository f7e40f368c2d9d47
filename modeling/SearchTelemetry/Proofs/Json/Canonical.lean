import SearchTelemetry.Proofs.Json.Grammar
import SearchTelemetry.Proofs.Json.Leaves
/-!
# Json.Canonical — values as they come from the reader

A value that was read nests no deeper than the reader let it (`Reads.nesting_le`), and the fields of every object in it are
in the order of their names, each name once (`Reads.inOrder`).  Fields in order stay as they are when they are put in order
once more (`Fields.ofList_of_ordered`).
-/
namespace SearchTelemetry
namespace Json

/-! ## Fields in order -/

namespace Fields

/-- Fields in the order of their names, each name once. -/
def Ordered (fs : Fields) : Prop :=
  fs.Pairwise (·.1 < ·.1)

theorem insert_of_forall_lt {name : String} (v : Value) : ∀ {fs : Fields}, (∀ f ∈ fs, f.1 < name) →
    insert name v fs = fs ++ [(name, v)]
  | [], _ => rfl
  | (n, w) :: fs, h => by
    have hn : n < name := h (n, w) (by simp)
    have hne : ¬name = n := fun heq => String.lt_irrefl n (heq ▸ hn)
    rw [insert, if_neg (String.lt_asymm hn), if_neg hne,
      insert_of_forall_lt v fun f hf => h f (List.mem_cons_of_mem _ hf)]
    rfl

theorem foldl_insert_of_ordered : ∀ {fs acc : Fields}, Ordered (acc ++ fs) →
    fs.foldl (fun acc f => insert f.1 f.2 acc) acc = acc ++ fs
  | [], acc, _ => by simp
  | (n, v) :: fs, acc, h => by
    have hlt : ∀ f ∈ acc, f.1 < n := fun f hf =>
      (List.pairwise_append.1 h).2.2 f hf (n, v) (by simp)
    rw [List.foldl_cons, insert_of_forall_lt v hlt, foldl_insert_of_ordered (by simpa using h)]
    simp

/-- **Fields in order stay as they are.** -/
theorem ofList_of_ordered {fs : Fields} (h : fs.Ordered) : ofList fs = fs :=
  foldl_insert_of_ordered (show Ordered ([] ++ fs) from h)

theorem mem_insert {name : String} {v : Value} : ∀ {fs : Fields} {f : String × Value},
    f ∈ insert name v fs → f = (name, v) ∨ f ∈ fs
  | [], f, h => .inl (by simpa [insert] using h)
  | (n, w) :: fs, f, h => by
    rw [insert] at h
    split at h
    · simpa using h
    split at h
    · rcases List.mem_cons.1 h with h | h
      · exact .inl h
      · exact .inr (List.mem_cons_of_mem _ h)
    · rcases List.mem_cons.1 h with h | h
      · exact .inr (by simp [h])
      · exact (mem_insert h).imp id (List.mem_cons_of_mem _)

theorem ordered_insert (name : String) (v : Value) : ∀ {fs : Fields}, fs.Ordered → (insert name v fs).Ordered
  | [], _ => by simp [insert, Ordered]
  | (n, w) :: fs, h => by
    obtain ⟨hn, hfs⟩ := List.pairwise_cons.1 h
    rw [insert]
    split
    · rename_i hlt
      refine List.pairwise_cons.2 ⟨fun f hf => ?_, h⟩
      rcases List.mem_cons.1 hf with rfl | hf
      · exact hlt
      · exact String.lt_trans hlt (hn f hf)
    split
    · rename_i heq
      exact List.pairwise_cons.2 ⟨fun f hf => heq ▸ hn f hf, hfs⟩
    · rename_i hlt hne
      have hgt : n < name := by
        by_contra hgt
        exact hne (String.le_antisymm (String.not_lt.1 hgt) (String.not_lt.1 hlt))
      refine List.pairwise_cons.2 ⟨fun f hf => ?_, ordered_insert name v hfs⟩
      rcases mem_insert hf with rfl | hf
      · exact hgt
      · exact hn f hf

theorem ordered_foldl_insert : ∀ (fs : List (String × Value)) {acc : Fields}, acc.Ordered →
    Ordered (fs.foldl (fun acc f => insert f.1 f.2 acc) acc)
  | [], _, h => h
  | f :: fs, _, h => ordered_foldl_insert fs (ordered_insert f.1 f.2 h)

theorem ordered_ofList (fs : List (String × Value)) : (ofList fs).Ordered :=
  ordered_foldl_insert fs List.Pairwise.nil

theorem mem_foldl_insert : ∀ {fs : List (String × Value)} {acc : Fields} {f : String × Value},
    f ∈ fs.foldl (fun acc f => insert f.1 f.2 acc) acc → f ∈ acc ∨ f ∈ fs
  | [], _, _, h => .inl h
  | g :: fs, acc, f, h => by
    rw [List.foldl_cons] at h
    rcases mem_foldl_insert h with h | h
    · rcases mem_insert h with rfl | h
      · exact .inr (by simp)
      · exact .inl h
    · exact .inr (List.mem_cons_of_mem _ h)

/-- Putting fields in order adds none. -/
theorem mem_of_mem_ofList {fs : List (String × Value)} {f : String × Value} (h : f ∈ ofList fs) : f ∈ fs :=
  (mem_foldl_insert h).resolve_left (by simp)

end Fields

/-! ## Throughout a value -/

mutual

/-- How deep brackets nest in a value. -/
def Value.nesting : Value → Nat
  | .null | .bool _ | .number _ | .string _ => 0
  | .array vs => nestingItems vs + 1
  | .object fs => nestingFields fs + 1

/-- How deep brackets nest in the items of an array. -/
def nestingItems : List Value → Nat
  | [] => 0
  | v :: vs => max v.nesting (nestingItems vs)

/-- How deep brackets nest in the values of fields. -/
def nestingFields : List (String × Value) → Nat
  | [] => 0
  | (_, v) :: fs => max v.nesting (nestingFields fs)

end

mutual

/-- Something holds of a value and of all values in it. -/
def Value.All (P : Value → Prop) : Value → Prop
  | .null => P .null
  | .bool b => P (.bool b)
  | .number n => P (.number n)
  | .string s => P (.string s)
  | .array vs => P (.array vs) ∧ AllItems P vs
  | .object fs => P (.object fs) ∧ AllFields P fs

/-- Something holds of the items of an array and of all values in them. -/
def AllItems (P : Value → Prop) : List Value → Prop
  | [] => True
  | v :: vs => v.All P ∧ AllItems P vs

/-- Something holds of the values of fields and of all values in them. -/
def AllFields (P : Value → Prop) : List (String × Value) → Prop
  | [] => True
  | (_, v) :: fs => v.All P ∧ AllFields P fs

end

/-- A value that is no object, or whose fields are in order. -/
def Value.IsOrdered : Value → Prop
  | .object fs => Fields.Ordered fs
  | _ => True

/-- A value that is no number, or a whole one. -/
def Value.IsWhole : Value → Prop
  | .number n => n.IsWhole
  | _ => True

/-- The fields of every object in a value are in order. -/
def Value.InOrder (v : Value) : Prop :=
  v.All Value.IsOrdered

/-- Every number in a value is whole. -/
def Value.Whole (v : Value) : Prop :=
  v.All Value.IsWhole

theorem nestingItems_le_iff {d : Nat} : ∀ {vs : List Value}, nestingItems vs ≤ d ↔ ∀ v ∈ vs, v.nesting ≤ d
  | [] => by simp [nestingItems]
  | v :: vs => by
    rw [nestingItems, Nat.max_le, nestingItems_le_iff, List.forall_mem_cons]

theorem nestingFields_le_iff {d : Nat} : ∀ {fs : List (String × Value)},
    nestingFields fs ≤ d ↔ ∀ f ∈ fs, f.2.nesting ≤ d
  | [] => by simp [nestingFields]
  | (k, v) :: fs => by
    rw [nestingFields, Nat.max_le, nestingFields_le_iff, List.forall_mem_cons]

theorem allItems_iff {P : Value → Prop} : ∀ {vs : List Value}, AllItems P vs ↔ ∀ v ∈ vs, v.All P
  | [] => by simp [AllItems]
  | v :: vs => by rw [AllItems, allItems_iff, List.forall_mem_cons]

theorem allFields_iff {P : Value → Prop} : ∀ {fs : List (String × Value)}, AllFields P fs ↔ ∀ f ∈ fs, f.2.All P
  | [] => by simp [AllFields]
  | (k, v) :: fs => by rw [AllFields, allFields_iff, List.forall_mem_cons]

/-! ## Values that were read -/

namespace Reader

/-- There is no bracket in a scalar. -/
theorem of_scalar {bs rest : List UInt8} {v : Value} (h : scalar bs = some (v, rest)) :
    v.nesting = 0 ∧ v.InOrder := by
  unfold scalar at h
  split at h
  · cases h
  split at h
  · obtain ⟨⟨s, r⟩, -, heq⟩ := Option.map_eq_some_iff.1 h
    obtain ⟨rfl, -⟩ : Value.string s = v ∧ r = rest := by simpa using heq
    exact ⟨rfl, trivial⟩
  split at h
  · obtain ⟨⟨n, r⟩, -, heq⟩ := Option.map_eq_some_iff.1 h
    obtain ⟨rfl, -⟩ : Value.number n = v ∧ r = rest := by simpa using heq
    exact ⟨rfl, trivial⟩
  split at h
  · obtain ⟨r, -, heq⟩ := Option.map_eq_some_iff.1 h
    obtain ⟨rfl, -⟩ : Value.null = v ∧ r = rest := by simpa using heq
    exact ⟨rfl, trivial⟩
  split at h
  · obtain ⟨r, -, heq⟩ := Option.map_eq_some_iff.1 h
    obtain ⟨rfl, -⟩ : Value.bool true = v ∧ r = rest := by simpa using heq
    exact ⟨rfl, trivial⟩
  split at h
  · obtain ⟨r, -, heq⟩ := Option.map_eq_some_iff.1 h
    obtain ⟨rfl, -⟩ : Value.bool false = v ∧ r = rest := by simpa using heq
    exact ⟨rfl, trivial⟩
  · cases h

/-- How deep brackets nest in a part. -/
def Part.nesting : Part → Nat
  | .value v => v.nesting
  | .items vs => nestingItems vs
  | .fields fs => nestingFields fs

/-- The fields of every object in a part are in order. -/
def Part.InOrder : Part → Prop
  | .value v => v.InOrder
  | .items vs => ∀ v ∈ vs, v.InOrder
  | .fields fs => ∀ f ∈ fs, f.2.InOrder

/-- **What is read nests no deeper than the reader lets it.** -/
theorem Reads.nesting_le {depth : Nat} {bs rest : List UInt8} {p : Part} (h : Reads depth bs p rest) :
    p.nesting ≤ depth := by
  induction h with
  | scalar h => exact Nat.le_trans (Nat.le_of_eq (of_scalar h).1) (Nat.zero_le _)
  | noItems | noFields => exact Nat.succ_le_succ (Nat.zero_le _)
  | array _ _ ih => exact Nat.succ_le_succ ih
  | object _ _ ih =>
    exact Nat.succ_le_succ (nestingFields_le_iff.2 fun f hf =>
      nestingFields_le_iff.1 ih f (Fields.mem_of_mem_ofList hf))
  | lastItem _ _ ih => exact Nat.max_le.2 ⟨ih, Nat.zero_le _⟩
  | nextItem _ _ _ ih ih' => exact Nat.max_le.2 ⟨ih, ih'⟩
  | lastField _ _ _ ih => exact Nat.max_le.2 ⟨ih, Nat.zero_le _⟩
  | nextField _ _ _ _ ih ih' => exact Nat.max_le.2 ⟨ih, ih'⟩

/-- **The fields of every object that is read are in order.** -/
theorem Reads.inOrder {depth : Nat} {bs rest : List UInt8} {p : Part} (h : Reads depth bs p rest) : p.InOrder := by
  induction h with
  | scalar h => exact (of_scalar h).2
  | noItems => exact ⟨trivial, trivial⟩
  | noFields => exact ⟨List.Pairwise.nil, trivial⟩
  | array _ _ ih => exact ⟨trivial, allItems_iff.2 ih⟩
  | object _ _ ih =>
    exact ⟨Fields.ordered_ofList _, allFields_iff.2 fun f hf => ih f (Fields.mem_of_mem_ofList hf)⟩
  | lastItem _ _ ih => simpa [Part.InOrder] using ih
  | nextItem _ _ _ ih ih' => exact List.forall_mem_cons.2 ⟨ih, ih'⟩
  | lastField _ _ _ ih => simpa [Part.InOrder] using ih
  | nextField _ _ _ _ ih ih' => exact List.forall_mem_cons.2 ⟨ih, ih'⟩

end Reader
end Json
end SearchTelemetry
