import SearchTelemetry.Toml.Document
/-!
# Toml.Range — every number of a file fits the word

An integer is only read if a signed word of 64 bits holds it, and nothing that a document does with values makes another
integer.  So all of them fit, however deep in arrays and tables they stand (`fits_of_fields?`).
-/
namespace SearchTelemetry
namespace Toml

/-- Every integer in a value fits the word. -/
inductive Value.Fits : Value → Prop where
  | string (s : String) : Fits (.string s)
  | integer {i : Int} : Int64.minValue.toInt ≤ i → i ≤ Int64.maxValue.toInt → Fits (.integer i)
  | real (written : String) : Fits (.real written)
  | boolean (b : Bool) : Fits (.boolean b)
  | instant (written : String) : Fits (.instant written)
  | array {items : List Value} : (∀ v ∈ items, Fits v) → Fits (.array items)
  | table {origin : Origin} {fields : List (String × Value)} : (∀ f ∈ fields, Fits f.2) → Fits (.table origin fields)
  | tables {latest : List (String × Value)} {earlier : List (List (String × Value))} :
      (∀ f ∈ latest, Fits f.2) → (∀ fs ∈ earlier, ∀ f ∈ fs, Fits f.2) → Fits (.tables latest earlier)

/-! ## Tables -/

namespace Fields

/-- Every integer in a table fits the word. -/
def Fits (fs : Fields) : Prop :=
  ∀ f ∈ fs, f.2.Fits

theorem fits_nil : Fits [] :=
  List.forall_mem_nil _

theorem Fits.append {fs : Fields} (h : fs.Fits) {v : Value} (hv : v.Fits) (name : String) : Fits (fs ++ [(name, v)]) := by
  intro f hf
  rcases List.mem_append.1 hf with hf | hf
  · exact h f hf
  · rw [List.mem_singleton.1 hf]
    exact hv

theorem Fits.lookup {fs : Fields} (h : fs.Fits) {name : String} {v : Value} (hv : fs.lookup name = some v) : v.Fits := by
  obtain ⟨a, b, hfs, _⟩ := List.lookup_eq_some_iff.1 hv
  exact h (name, v) (hfs ▸ by simp)

theorem Fits.put {fs : Fields} (h : fs.Fits) {v : Value} (hv : v.Fits) (name : String) : Fits (fs.put name v) := by
  induction fs with
  | nil => exact fits_nil.append hv name
  | cons f fs ih =>
    obtain ⟨hf, hfs⟩ := List.forall_mem_cons.1 h
    unfold Fields.put
    split
    · exact List.forall_mem_cons.2 ⟨hv, hfs⟩
    · exact List.forall_mem_cons.2 ⟨hf, ih hfs⟩

/-- A change of a table within keeps what fits, if it keeps it in that table. -/
theorem Fits.changeAt {way : Origin} {change : Origin → Fields → Option Fields}
    (hchange : ∀ own fs fs', Fits fs → change own fs = some fs' → Fits fs') {path : List String} {own : Origin}
    {fs fs' : Fields} (h : fs.Fits) (heq : Fields.changeAt way change path own fs = some fs') : fs'.Fits := by
  induction path generalizing own fs fs' with
  | nil => exact hchange own fs fs' h heq
  | cons name path ih =>
    unfold Fields.changeAt at heq
    split at heq
    · obtain ⟨inner, hinner, rfl⟩ := Option.map_eq_some_iff.1 heq
      exact h.append (.table (ih fits_nil hinner)) name
    · rename_i hlookup
      split at heq
      · obtain ⟨inner', hinner, rfl⟩ := Option.map_eq_some_iff.1 heq
        cases h.lookup hlookup with
        | table hfields => exact h.put (.table (ih hfields hinner)) name
      · cases heq
    · rename_i hlookup
      obtain ⟨latest', hlatest, rfl⟩ := Option.map_eq_some_iff.1 heq
      cases h.lookup hlookup with
      | tables hfields hearlier => exact h.put (.tables (ih hfields hlatest) hearlier) name
    · cases heq

theorem Fits.add {fs fs' : Fields} (h : fs.Fits) {v : Value} (hv : v.Fits) {name : String}
    (heq : fs.add name v = some fs') : fs'.Fits := by
  unfold Fields.add at heq
  split at heq
  · cases heq
    exact h.append hv name
  · cases heq

theorem Fits.addDotted {fs fs' : Fields} (h : fs.Fits) {v : Value} (hv : v.Fits) {path : List String} {name : String}
    (heq : fs.addDotted path name v = some fs') : fs'.Fits := by
  refine h.changeAt (fun own fs fs' hfs hadd => ?_) heq
  split at hadd
  · exact hfs.add hv hadd
  · cases hadd

theorem Fits.openTable {fs fs' : Fields} (h : fs.Fits) {name : String} (heq : fs.openTable name = some fs') : fs'.Fits := by
  unfold Fields.openTable at heq
  split at heq
  · cases heq
    exact h.append (.table fits_nil) name
  · rename_i hlookup
    cases heq
    cases h.lookup hlookup with
    | table hfields => exact h.put (.table hfields) name
  · cases heq

theorem Fits.openListed {fs fs' : Fields} (h : fs.Fits) {name : String} (heq : fs.openListed name = some fs') :
    fs'.Fits := by
  unfold Fields.openListed at heq
  split at heq
  · cases heq
    exact h.append (.tables fits_nil (List.forall_mem_nil _)) name
  · rename_i hlookup
    cases heq
    cases h.lookup hlookup with
    | tables hlatest hearlier => exact h.put (.tables fits_nil (List.forall_mem_cons.2 ⟨hlatest, hearlier⟩)) name
  · cases heq

end Fields

theorem Value.fits_ofPairs? {pairs : List (Key × Value)} (h : ∀ p ∈ pairs, p.2.Fits) {v : Value}
    (heq : Value.ofPairs? pairs = some v) : v.Fits := by
  obtain ⟨fs, hfs, rfl⟩ := Option.map_eq_some_iff.1 heq
  refine .table (List.foldlRecOn pairs _ (motive := fun acc => ∀ fs, acc = some fs → Fields.Fits fs) ?_ ?_ fs hfs)
  · rintro _ ⟨⟩
    exact Fields.fits_nil
  · intro acc hacc p hp fs hadd
    obtain ⟨before, hbefore, hadd⟩ := Option.bind_eq_some_iff.1 hadd
    exact (hacc before hbefore).addDotted (h p hp) hadd

/-! ## Values -/

theorem Scalar.le_of_integer? {cs : List Char} {i : Int} (h : Scalar.integer? cs = some i) :
    Int64.minValue.toInt ≤ i ∧ i ≤ Int64.maxValue.toInt := by
  have := (Option.filter_eq_some_iff.1 h).2
  simpa using this

theorem Scalar.fits_ofToken? {cs : List Char} {v : Value} (h : Scalar.ofToken? cs = some v) : v.Fits := by
  unfold Scalar.ofToken? at h
  split at h
  · cases h
    exact .boolean true
  split at h
  · cases h
    exact .boolean false
  split at h
  · rename_i hinteger
    cases h
    obtain ⟨hl, hh⟩ := Scalar.le_of_integer? hinteger
    exact .integer hl hh
  split at h
  · cases h
    exact .real _
  split at h
  · cases h
    exact .instant _
  · cases h

theorem Scalar.fits_take? {cs rest : List Char} {v : Value} (h : Scalar.take? cs = some (v, rest)) : v.Fits := by
  obtain ⟨w, hw, heq⟩ := Option.map_eq_some_iff.1 h
  cases heq
  exact Scalar.fits_ofToken? hw

/-- What a reader of values reads, fits. -/
def ReadsFitting (value? : List Char → Option (Value × List Char)) : Prop :=
  ∀ cs v rest, value? cs = some (v, rest) → v.Fits

section
variable {value? : List Char → Option (Value × List Char)} (hvalue : ReadsFitting value?)

include hvalue

theorem fits_takeItems? {cs rest : List Char} {vs : List Value} (h : takeItems? value? cs = some (vs, rest)) :
    ∀ v ∈ vs, v.Fits := by
  fun_induction takeItems? value? cs generalizing vs rest with
  | case1 =>
    cases h
    exact List.forall_mem_nil _
  | case2 => cases h
  | case3 cs start hopen v behind hv more =>
    rename_i ih
    obtain ⟨⟨ws, _⟩, hws, heq⟩ := Option.map_eq_some_iff.1 h
    cases heq
    exact List.forall_mem_cons.2 ⟨hvalue _ _ _ hv, ih hws⟩
  | case4 => cases h
  | case5 cs start hopen v behind hv =>
    cases h
    exact List.forall_mem_singleton.2 (hvalue _ _ _ hv)
  | case6 => cases h

theorem fits_takePair? {cs rest : List Char} {p : Key × Value} (h : takePair? value? cs = some (p, rest)) : p.2.Fits := by
  obtain ⟨⟨key, behind⟩, _, h⟩ := Option.bind_eq_some_iff.1 h
  obtain ⟨behind, _, h⟩ := Option.bind_eq_some_iff.1 h
  obtain ⟨⟨v, _⟩, hv, heq⟩ := Option.map_eq_some_iff.1 h
  cases heq
  exact hvalue _ _ _ hv

theorem fits_takePairs? {cs rest : List Char} {ps : List (Key × Value)} (h : takePairs? value? cs = some (ps, rest)) :
    ∀ p ∈ ps, p.2.Fits := by
  fun_induction takePairs? value? cs generalizing ps rest with
  | case1 => cases h
  | case2 cs p behind hp more _ _ ih =>
    obtain ⟨⟨qs, _⟩, hqs, heq⟩ := Option.map_eq_some_iff.1 h
    cases heq
    exact List.forall_mem_cons.2 ⟨fits_takePair? hvalue hp, ih hqs⟩
  | case3 => cases h
  | case4 cs p behind hp =>
    cases h
    exact List.forall_mem_singleton.2 (fits_takePair? hvalue hp)
  | case5 => cases h

end

/-- A value without brackets. -/
theorem fits_string_or_scalar {cs rest : List Char} {v : Value}
    (h : (match takeString? cs with
      | some (s, rest) => some (Value.string s, rest)
      | none => Scalar.take? cs) = some (v, rest)) : v.Fits := by
  split at h
  · cases h
    exact .string _
  · exact Scalar.fits_take? h

theorem fits_takeValue? (depth : Nat) : ReadsFitting (takeValue? depth) := by
  induction depth with
  | zero =>
    intro cs v rest h
    unfold takeValue? at h
    split at h
    · cases h
    · cases h
    · exact fits_string_or_scalar h
  | succ depth ih =>
    intro cs v rest h
    unfold takeValue? at h
    split at h
    · obtain ⟨⟨vs, _⟩, hvs, heq⟩ := Option.map_eq_some_iff.1 h
      cases heq
      exact .array (fits_takeItems? ih hvs)
    · simp only at h
      split at h
      · cases h
        exact .table (List.forall_mem_nil _)
      · obtain ⟨⟨ps, _⟩, hps, h⟩ := Option.bind_eq_some_iff.1 h
        obtain ⟨_, hv, heq⟩ := Option.map_eq_some_iff.1 h
        cases heq
        exact Value.fits_ofPairs? (fits_takePairs? ih hps) hv
    · exact fits_string_or_scalar h

/-! ## Statements -/

/-- Every integer in a statement fits the word. -/
def Statement.Fits : Statement → Prop
  | .setting _ v => v.Fits
  | _ => True

theorem fits_takeStatement? {cs rest : List Char} {st : Statement} (h : takeStatement? cs = some (st, rest)) : st.Fits := by
  unfold takeStatement? at h
  split at h
  · obtain ⟨⟨key, behind⟩, _, h⟩ := Option.bind_eq_some_iff.1 h
    obtain ⟨_, _, heq⟩ := Option.map_eq_some_iff.1 h
    cases heq
    trivial
  · obtain ⟨⟨key, behind⟩, _, h⟩ := Option.bind_eq_some_iff.1 h
    obtain ⟨_, _, heq⟩ := Option.map_eq_some_iff.1 h
    cases heq
    trivial
  · obtain ⟨⟨p, behind⟩, hp, heq⟩ := Option.map_eq_some_iff.1 h
    cases heq
    exact fits_takePair? (fits_takeValue? maxDepth) hp

theorem fits_takeLine? {cs rest : List Char} {found : Option Statement} (h : takeLine? cs = some (found, rest)) :
    ∀ st ∈ found, Statement.Fits st := by
  unfold takeLine? at h
  split at h
  · cases h
    rintro _ ⟨⟩
  · obtain ⟨⟨st, behind⟩, hst, h⟩ := Option.bind_eq_some_iff.1 h
    obtain ⟨_, _, heq⟩ := Option.map_eq_some_iff.1 h
    cases heq
    rintro _ ⟨⟩
    exact fits_takeStatement? hst

theorem fits_statements? {cs : List Char} {sts : List Statement} (h : statements? cs = some sts) : ∀ st ∈ sts, st.Fits := by
  fun_induction statements? cs generalizing sts with
  | case1 =>
    cases h
    exact List.forall_mem_nil _
  | case2 => cases h
  | case3 cs _ found behind hfound _ ih =>
    obtain ⟨more, hmore, rfl⟩ := Option.map_eq_some_iff.1 h
    intro st hst
    rcases List.mem_append.1 hst with hst | hst
    · exact fits_takeLine? hfound st (Option.mem_toList.1 hst)
    · exact ih hmore st hst
  | case4 => cases h

theorem Document.fits_take {doc doc' : Document} (hdoc : doc.fields.Fits) {st : Statement} (hst : st.Fits)
    (h : doc.take st = some doc') : doc'.fields.Fits := by
  cases st with
  | setting key v =>
    obtain ⟨fs, hfs, rfl⟩ := Option.map_eq_some_iff.1 h
    exact hdoc.changeAt (fun _ _ _ hown hadd => hown.addDotted hst hadd) hfs
  | header key =>
    obtain ⟨fs, hfs, rfl⟩ := Option.map_eq_some_iff.1 h
    exact hdoc.changeAt (fun _ _ _ hown hopen => hown.openTable hopen) hfs
  | listHeader key =>
    obtain ⟨fs, hfs, rfl⟩ := Option.map_eq_some_iff.1 h
    exact hdoc.changeAt (fun _ _ _ hown hopen => hown.openListed hopen) hfs

theorem Document.fits_build? {sts : List Statement} (hsts : ∀ st ∈ sts, st.Fits) {fs : Fields} (h : Document.build? sts = some fs) :
    fs.Fits := by
  obtain ⟨doc, hdoc, rfl⟩ := Option.map_eq_some_iff.1 h
  refine List.foldlRecOn sts _ (motive := fun acc => ∀ doc, acc = some doc → doc.fields.Fits) ?_ ?_ doc hdoc
  · rintro _ ⟨⟩
    exact Fields.fits_nil
  · intro acc hacc st hst doc htake
    obtain ⟨before, hbefore, htake⟩ := Option.bind_eq_some_iff.1 htake
    exact Document.fits_take (hacc before hbefore) (hsts st hst) htake

/-- **Every integer of a file fits the word.** -/
theorem fits_of_fields? {text : String} {fs : Fields} (h : fields? text = some fs) : fs.Fits := by
  obtain ⟨sts, hsts, hbuild⟩ := Option.bind_eq_some_iff.1 h
  exact Document.fits_build? (fits_statements? hsts) hbuild

end Toml
end SearchTelemetry
