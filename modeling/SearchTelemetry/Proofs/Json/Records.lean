import SearchTelemetry.Proofs.Json.Grammar
import SearchTelemetry.Text.Blank
/-!
# Json.Records — where a record that is read in full ends

`strict?` reads a record that bytes begin with (`start?`) and asks that nothing but blanks follows it.  A record ends with
its bracket.  Blanks behind it make no difference (`strict?_append_spaces`), and bytes that are a record are no proper
beginning of another one, blanks at its end aside (`spaces_of_strict?`).
-/
namespace SearchTelemetry
namespace Json
namespace Written

open Reader

/-- A record that bytes begin with, and the bytes behind it. -/
inductive Begins : List UInt8 → Written → List UInt8 → Prop where
  | noFields {bs r rest : List UInt8} (h : skipSpace bs = 0x7B :: r) (hr : skipSpace r = 0x7D :: rest) :
      Begins bs (.named []) rest
  | fields {bs r rest : List UInt8} {fs : Fields} (h : skipSpace bs = 0x7B :: r)
      (hr : Reads (maxDepth - 1) (skipSpace r) (.fields fs) rest) : Begins bs (.named fs) rest
  | noItems {bs r rest : List UInt8} (h : skipSpace bs = 0x5B :: r) (hr : skipSpace r = 0x5D :: rest) :
      Begins bs (.listed []) rest
  | items {bs r rest : List UInt8} {vs : List Value} (h : skipSpace bs = 0x5B :: r)
      (hr : Reads (maxDepth - 1) (skipSpace r) (.items vs) rest) : Begins bs (.listed vs) rest

theorem whole_eq_some_iff {α : Type} {r : Option (α × List UInt8)} {a : α} :
    whole r = some a ↔ ∃ rest, r = some (a, rest) ∧ skipSpace rest = [] := by
  cases r with
  | none => simp [whole]
  | some p =>
    obtain ⟨a', rest⟩ := p
    simp only [whole, List.isEmpty_iff]
    split
    · rename_i h
      constructor
      · rintro ⟨⟩
        exact ⟨rest, rfl, h⟩
      · rintro ⟨rest', heq, -⟩
        simp only [Option.some.injEq, Prod.mk.injEq] at heq
        rw [heq.1]
    · rename_i h
      constructor
      · rintro ⟨⟩
      · rintro ⟨rest', heq, h'⟩
        simp only [Option.some.injEq, Prod.mk.injEq] at heq
        exact absurd (heq.2 ▸ h') h

/-- The record that bytes begin with, and the bytes behind it. -/
def start? (bs : List UInt8) : Option (Written × List UInt8) :=
  match skipSpace bs with
  | 0x7B :: rest =>
    match skipSpace rest with
    | 0x7D :: rest => some (.named [], rest)
    | rest => (fieldsLoop rest.length.succ (maxDepth - 1) [] rest).map fun (fs, r) => (.named fs, r)
  | 0x5B :: rest =>
    match skipSpace rest with
    | 0x5D :: rest => some (.listed [], rest)
    | rest => (itemsLoop rest.length.succ (maxDepth - 1) [] rest).map fun (vs, r) => (.listed vs, r)
  | _ => none

theorem strict?_eq (bs : List UInt8) : strict? bs = whole (start? bs) := by
  unfold strict? read start?
  split
  · split <;> simp only [*]
  · split <;> simp only [*]
  · simp [whole]

theorem start?_eq_some_iff {bs rest : List UInt8} {w : Written} : start? bs = some (w, rest) ↔ Begins bs w rest := by
  constructor
  · intro h
    unfold start? at h
    split at h
    · rename_i r hr
      split at h
      · rename_i rest' hrest
        obtain ⟨rfl, rfl⟩ : named [] = w ∧ rest' = rest := by simpa using h
        exact .noFields hr hrest
      · obtain ⟨⟨fs, r'⟩, hf, heq⟩ := Option.map_eq_some_iff.1 h
        obtain ⟨rfl, rfl⟩ : named fs = w ∧ r' = rest := by simpa using heq
        obtain ⟨fs', rfl, hreads⟩ := (reads_loops _).2.2 _ _ _ _ _ hf
        exact .fields hr hreads
    · rename_i r hr
      split at h
      · rename_i rest' hrest
        obtain ⟨rfl, rfl⟩ : listed [] = w ∧ rest' = rest := by simpa using h
        exact .noItems hr hrest
      · obtain ⟨⟨vs, r'⟩, hf, heq⟩ := Option.map_eq_some_iff.1 h
        obtain ⟨rfl, rfl⟩ : listed vs = w ∧ r' = rest := by simpa using heq
        obtain ⟨vs', rfl, hreads⟩ := (reads_loops _).2.1 _ _ _ _ _ hf
        exact .items hr hreads
    · cases h
  · intro h
    cases h with
    | noFields h hr => simp [start?, h, hr]
    | noItems h hr => simp [start?, h, hr]
    | @fields r _ fs h hr =>
      have hne := hr.fields_ne
      have hloop := hr.loopReads (skipSpace r).length.succ (by omega) []
      simp [start?, h, hloop]
    | @items r _ vs h hr =>
      have hne := hr.items_ne
      have hloop := hr.loopReads (skipSpace r).length.succ (by omega) []
      simp [start?, h, hloop]

theorem strict?_eq_some_iff {bs : List UInt8} {w : Written} :
    strict? bs = some w ↔ ∃ rest, Begins bs w rest ∧ skipSpace rest = [] := by
  simp only [strict?_eq, whole_eq_some_iff, start?_eq_some_iff]

theorem Begins.looksNoFurther {bs rest : List UInt8} {w : Written} (h : Begins bs w rest) :
    ∃ used, bs = used ++ rest ∧ Solid used ∧ ∀ q, Begins (used ++ q) w q := by
  cases h with
  | noFields h hr =>
    obtain ⟨used, hu, hs, hq⟩ := looksNoFurther_noInner h hr
    exact ⟨used, hu, hs, fun q => let ⟨_, h, hr⟩ := hq q; .noFields h hr⟩
  | @fields _ _ fs h hr =>
    obtain ⟨used', hu', hs', hq'⟩ := hr.looksNoFurther
    obtain ⟨used, hu, hs, hq⟩ := looksNoFurther_bracket (Reads (maxDepth - 1) · (.fields fs) ·) h
      ⟨used', hu', hs', fun q => hq' q trivial⟩
    exact ⟨used, hu, hs, fun q => let ⟨_, h, hr⟩ := hq q; .fields h hr⟩
  | noItems h hr =>
    obtain ⟨used, hu, hs, hq⟩ := looksNoFurther_noInner h hr
    exact ⟨used, hu, hs, fun q => let ⟨_, h, hr⟩ := hq q; .noItems h hr⟩
  | @items _ _ vs h hr =>
    obtain ⟨used', hu', hs', hq'⟩ := hr.looksNoFurther
    obtain ⟨used, hu, hs, hq⟩ := looksNoFurther_bracket (Reads (maxDepth - 1) · (.items vs) ·) h
      ⟨used', hu', hs', fun q => hq' q trivial⟩
    exact ⟨used, hu, hs, fun q => let ⟨_, h, hr⟩ := hq q; .items h hr⟩

theorem looksNoFurther_start? : LooksNoFurther start? fun _ => True := by
  intro bs w rest h
  obtain ⟨used, hu, hs, hq⟩ := (start?_eq_some_iff.1 h).looksNoFurther
  exact ⟨used, hu, hs, fun q _ => start?_eq_some_iff.2 (hq q)⟩

/-- A record is not blank. -/
theorem not_blank_of_strict? {bs : List UInt8} {w : Written} (h : strict? bs = some w) :
    bs.all Blank.isBlankByte = false := by
  have hstart : ∀ {b : UInt8} {r : List UInt8}, Blank.isBlankByte b = false → skipSpace bs = b :: r →
      bs.all Blank.isBlankByte = false := fun {b r} hb hr => by
    obtain ⟨sp, -, -, rfl⟩ := eq_spaces_cons hr
    simp [hb]
  obtain ⟨rest, hbegins, -⟩ := strict?_eq_some_iff.1 h
  cases hbegins with
  | noFields hr | fields hr | noItems hr | items hr => exact hstart (by decide) hr

/-- A record is read alike whether or not blanks follow it. -/
theorem strict?_append_spaces {sp : List UInt8} (hsp : ∀ b ∈ sp, isSpace b = true) (bs : List UInt8) :
    strict? (bs ++ sp) = strict? bs := by
  ext w
  rw [strict?_eq, strict?_eq, whole_eq_some_iff, whole_eq_some_iff]
  constructor
  · rintro ⟨rest, h, hrest⟩
    obtain ⟨used, hu, hs, hq⟩ := looksNoFurther_start? _ _ _ h
    rcases List.append_eq_append_iff.1 hu with ⟨as, rfl, hsp'⟩ | ⟨cs, rfl, rfl⟩
    · obtain rfl := eq_nil_of_solid_append hs fun b hb => hsp b (by simp [hsp', hb])
      exact ⟨[], by simpa using hq [] trivial, rfl⟩
    · refine ⟨cs, hq cs trivial, skipSpace_eq_nil_iff.2 fun b hb => ?_⟩
      exact skipSpace_eq_nil_iff.1 hrest b (by simp [hb])
  · rintro ⟨rest, h, hrest⟩
    obtain ⟨used, rfl, -, hq⟩ := looksNoFurther_start? _ _ _ h
    refine ⟨rest ++ sp, by simpa using hq (rest ++ sp) trivial, skipSpace_eq_nil_iff.2 fun b hb => ?_⟩
    rcases List.mem_append.1 hb with hb | hb
    · exact skipSpace_eq_nil_iff.1 hrest b hb
    · exact hsp b hb

/-- **Nothing but blanks follows a record within a longer one**: a record ends with its bracket. -/
theorem spaces_of_strict? {bs q : List UInt8} {w w' : Written} (h : strict? bs = some w)
    (h' : strict? (bs ++ q) = some w') : ∀ b ∈ q, isSpace b = true := by
  rw [strict?_eq, whole_eq_some_iff] at h h'
  obtain ⟨rest, h, -⟩ := h
  obtain ⟨rest', h', hrest'⟩ := h'
  obtain ⟨used, rfl, -, hq⟩ := looksNoFurther_start? _ _ _ h
  rw [List.append_assoc, hq _ trivial, Option.some.injEq, Prod.mk.injEq] at h'
  exact fun b hb => skipSpace_eq_nil_iff.1 hrest' b (by simp [← h'.2, hb])

end Written
end Json
end SearchTelemetry
