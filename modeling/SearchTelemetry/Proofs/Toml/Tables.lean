import SearchTelemetry.Toml.Document
/-!
# Toml.Tables — the table of settings and sections

A file that has settings of its own first and then sections, none of them named twice, holds these settings in their
order and behind them one table for each section (`build?_sections`).
-/
namespace SearchTelemetry
namespace Toml

/-- The names of fields. -/
def Fields.names (fs : Fields) : List String :=
  fs.map Prod.fst

/-- Settings without sections, one line for each. -/
def settings (fs : Fields) : List Statement :=
  fs.map fun f => .setting ([], f.1) f.2

/-- A header, and the settings below it. -/
def sectionOf (s : String × Fields) : List Statement :=
  .header ([], s.1) :: settings s.2

namespace Fields

theorem names_append (a b : Fields) : names (a ++ b) = a.names ++ b.names :=
  List.map_append

theorem lookup_eq_none {fs : Fields} {name : String} (h : name ∉ fs.names) : fs.lookup name = none := by
  rw [List.lookup_eq_none_iff]
  intro f hf
  rw [bne_iff_ne]
  rintro rfl
  exact h (List.mem_map_of_mem hf)

theorem lookup_last {fs : Fields} {name : String} (h : name ∉ fs.names) (v : Value) :
    (fs ++ [(name, v)]).lookup name = some v := by
  rw [List.lookup_append, lookup_eq_none h]
  simp

theorem put_last {fs : Fields} {name : String} (h : name ∉ fs.names) (v w : Value) :
    put name w (fs ++ [(name, v)]) = fs ++ [(name, w)] := by
  induction fs with
  | nil => simp [put]
  | cons f fs ih =>
    obtain ⟨hne, htail⟩ := List.ne_and_not_mem_of_not_mem_cons h
    rw [List.cons_append, put, if_neg hne.symm, ih htail]
    rfl

theorem addDotted_nil {fs : Fields} {name : String} (h : name ∉ fs.names) (v : Value) :
    addDotted [] name v fs = some (fs ++ [(name, v)]) := by
  simp [addDotted, changeAt, add, lookup_eq_none h]

end Fields

namespace Document

/-- What is left to build behind some of the statements. -/
def takeAll (doc : Option Document) (sts : List Statement) : Option Document :=
  sts.foldl (fun doc st => doc.bind (·.take st)) doc

theorem takeAll_append (doc : Option Document) (a b : List Statement) : takeAll doc (a ++ b) = takeAll (takeAll doc a) b :=
  List.foldl_append

theorem takeAll_cons {doc doc' : Document} {st : Statement} (h : doc.take st = some doc') (sts : List Statement) :
    takeAll (some doc) (st :: sts) = takeAll (some doc') sts := by
  rw [takeAll, List.foldl_cons, Option.bind_some, h]
  rfl

/-! ## Settings -/

theorem take_setting {fs : Fields} {name : String} (h : name ∉ fs.names) (v : Value) :
    take ⟨fs, []⟩ (.setting ([], name) v) = some ⟨fs ++ [(name, v)], []⟩ := by
  simp [take, Fields.changeAt, Fields.addDotted_nil h]

theorem take_setting_within {fs inner : Fields} {table name : String} (htable : table ∉ fs.names) (h : name ∉ inner.names)
    (v : Value) : take ⟨fs ++ [(table, .table .header inner)], [table]⟩ (.setting ([], name) v) =
      some ⟨fs ++ [(table, .table .header (inner ++ [(name, v)]))], [table]⟩ := by
  simp [take, Fields.changeAt, Fields.lookup_last htable, Fields.mayGrow, Fields.addDotted_nil h, Fields.put_last htable]

theorem take_header {fs : Fields} {table : String} (h : table ∉ fs.names) (path : List String) :
    take ⟨fs, path⟩ (.header ([], table)) = some ⟨fs ++ [(table, .table .header [])], [table]⟩ := by
  simp [take, Fields.changeAt, Fields.openTable, Fields.lookup_eq_none h]

/-- Settings go to a table one after the other, wherever the document has that table. -/
theorem takeAll_settings {place : Fields → Document}
    (hplace : ∀ own name v, name ∉ Fields.names own →
      (place own).take (.setting ([], name) v) = some (place (own ++ [(name, v)])))
    (own fs : Fields) (h : (own.names ++ fs.names).Nodup) :
    takeAll (some (place own)) (settings fs) = some (place (own ++ fs)) := by
  induction fs generalizing own with
  | nil =>
    rw [List.append_nil]
    rfl
  | cons f fs ih =>
    obtain ⟨name, v⟩ := f
    have hnames : (own ++ [(name, v)] : Fields).names ++ Fields.names fs = own.names ++ Fields.names ((name, v) :: fs) := by
      rw [Fields.names_append, List.append_assoc]
      rfl
    have hnew : name ∉ own.names := fun hmem =>
      (List.nodup_append.1 h).2.2 name hmem name List.mem_cons_self rfl
    have htail := ih (own ++ [(name, v)]) (by rw [hnames]; exact h)
    have hfront : settings ((name, v) :: fs) = .setting ([], name) v :: settings fs := rfl
    rw [hfront, takeAll_cons (hplace own name v hnew), htail, List.append_assoc]
    rfl

/-! ## Sections -/

/-- The tables of sections. -/
def tables (sections : List (String × Fields)) : Fields :=
  sections.map fun s => (s.1, .table .header s.2)

theorem takeAll_section {fs inner : Fields} {table : String} (htable : table ∉ fs.names) (h : inner.names.Nodup)
    (path : List String) : takeAll (some ⟨fs, path⟩) (sectionOf (table, inner)) =
      some ⟨fs ++ [(table, .table .header inner)], [table]⟩ := by
  have hplace (own : Fields) (name : String) (v : Value) (hname : name ∉ own.names) :=
    take_setting_within htable hname v
  have hall := takeAll_settings hplace [] inner (by simpa [Fields.names] using h)
  have hheader : sectionOf (table, inner) = .header ([], table) :: settings inner := rfl
  rw [hheader, takeAll_cons (take_header htable path)]
  exact hall

theorem takeAll_sections (fs : Fields) (path : List String) (sections : List (String × Fields))
    (h : (fs.names ++ sections.map Prod.fst).Nodup) (hinner : ∀ s ∈ sections, s.2.names.Nodup) :
    ∃ last, takeAll (some ⟨fs, path⟩) (sections.flatMap sectionOf) = some ⟨fs ++ tables sections, last⟩ := by
  induction sections generalizing fs path with
  | nil => exact ⟨path, by simp [takeAll, tables]⟩
  | cons s sections ih =>
    obtain ⟨table, inner⟩ := s
    have hhead : inner.names.Nodup := hinner (table, inner) List.mem_cons_self
    have htail (s : String × Fields) (hs : s ∈ sections) : s.2.names.Nodup := hinner s (List.mem_cons_of_mem _ hs)
    have hnew : table ∉ fs.names := fun hmem =>
      (List.nodup_append.1 h).2.2 table hmem table List.mem_cons_self rfl
    have hnames : (fs ++ [(table, .table .header inner)] : Fields).names ++ sections.map Prod.fst =
        fs.names ++ ((table, inner) :: sections).map Prod.fst := by
      rw [Fields.names_append, List.append_assoc]
      rfl
    obtain ⟨last, hlast⟩ := ih (fs ++ [(table, .table .header inner)]) [table] (by rw [hnames]; exact h) htail
    refine ⟨last, ?_⟩
    rw [List.flatMap_cons, takeAll_append, takeAll_section hnew hhead, hlast, List.append_assoc]
    rfl

/-- **A file of settings and sections holds them all**, where no name stands twice in one place. -/
theorem build?_sections (top : Fields) (sections : List (String × Fields))
    (h : (top.names ++ sections.map Prod.fst).Nodup) (hinner : ∀ s ∈ sections, s.2.names.Nodup) :
    build? (settings top ++ sections.flatMap sectionOf) = some (top ++ tables sections) := by
  have hplace (own : Fields) (name : String) (v : Value) (hname : name ∉ own.names) := take_setting hname v
  have htop := takeAll_settings hplace [] top (List.nodup_append.1 h).1
  obtain ⟨last, hall⟩ := takeAll_sections top [] sections h hinner
  have hboth : takeAll (some ⟨[], []⟩) (settings top ++ sections.flatMap sectionOf) =
      some ⟨top ++ tables sections, last⟩ := by
    rw [takeAll_append, htop]
    exact hall
  exact congrArg (Option.map (·.fields)) hboth

end Document
end Toml
end SearchTelemetry
