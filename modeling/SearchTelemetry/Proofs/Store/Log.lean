import Mathlib.Data.List.Perm.Basic
import SearchTelemetry.Store
/-!
# Store.Log — memory as the sum of a log

What memory keeps is told by two lists: the entries that were accepted, and the identifiers that were issued.  `Keeps`
says how.  It holds of the memory of any list of entries (`keeps_ofEntries`), and each entry and each identifier that is
issued keeps it (`Keeps.add`, `Keeps.allocate`).
-/
namespace SearchTelemetry

/-! ## Entries by their kind -/

namespace JournalEntry

/-- The search report in an entry. -/
def search? : JournalEntry → Option SearchRecord
  | searchResults r => some r
  | _ => none

/-- The feedback in an entry. -/
def feedback? : JournalEntry → Option FeedbackRecord
  | feedback r => some r
  | _ => none

/-- The metrics in an entry. -/
def metrics? : JournalEntry → Option MetricsRecord
  | metrics r => some r
  | _ => none

end JournalEntry

/-- Entries in the order in which they were accepted. -/
abbrev Log := List JournalEntry

namespace Log

/-- The search reports, in order. -/
def searches (l : Log) : List SearchRecord :=
  l.filterMap JournalEntry.search?

/-- The search reports on an identifier, in order. -/
def reportsOn (l : Log) (id : QueryId) : List SearchRecord :=
  l.searches.filter (·.queryId = id)

/-- The feedback, in order. -/
def feedback (l : Log) : List FeedbackRecord :=
  l.filterMap JournalEntry.feedback?

/-- The metrics, in order. -/
def metrics (l : Log) : List MetricsRecord :=
  l.filterMap JournalEntry.metrics?

/-- The identifiers that search reports name, one for each report. -/
def ids (l : Log) : List QueryId :=
  l.searches.map (·.queryId)

theorem searches_singleton (e : JournalEntry) : searches [e] = e.search?.toList := by
  cases h : e.search? <;> simp [searches, h]

theorem feedback_singleton (e : JournalEntry) : feedback [e] = e.feedback?.toList := by
  cases h : e.feedback? <;> simp [feedback, h]

theorem metrics_singleton (e : JournalEntry) : metrics [e] = e.metrics?.toList := by
  cases h : e.metrics? <;> simp [metrics, h]

theorem searches_append (l l' : Log) : (l ++ l').searches = l.searches ++ l'.searches :=
  List.filterMap_append

theorem feedback_append (l l' : Log) : (l ++ l').feedback = l.feedback ++ l'.feedback :=
  List.filterMap_append

theorem metrics_append (l l' : Log) : (l ++ l').metrics = l.metrics ++ l'.metrics :=
  List.filterMap_append

/-- An identifier that no report names has no reports. -/
theorem reportsOn_eq_nil {l : Log} {id : QueryId} (h : id ∉ l.ids) : l.reportsOn id = [] :=
  List.filter_eq_nil_iff.2 fun r hr heq => h (List.mem_map.2 ⟨r, hr, by simpa using heq⟩)

end Log

/-! ## Queries -/

namespace Queries

/-- The identifiers that are known, in the order in which they were first heard of. -/
def ids (qs : Queries) : List QueryId :=
  qs.map (·.queryId)

variable {f : QueryRecord → QueryRecord} {id : QueryId}

theorem find?_cons (q : QueryRecord) (qs : Queries) (id : QueryId) :
    find? (q :: qs) id = if q.queryId = id then some q else find? qs id := by
  unfold find?
  by_cases h : q.queryId = id <;> simp [h]

theorem find?_eq_none_iff (qs : Queries) (id : QueryId) : qs.find? id = none ↔ id ∉ qs.ids := by
  simp [find?, ids]

theorem queryId_of_find? {qs : Queries} {q : QueryRecord} (h : qs.find? id = some q) : q.queryId = id := by
  simpa using List.find?_some h

/-- **A change of one record is seen under its identifier only**, where a new record is made if there is none. -/
theorem find?_update (hf : ∀ q, (f q).queryId = q.queryId) (id' : QueryId) :
    ∀ qs : Queries, (update id f qs).find? id' =
      if id' = id then some (f ((qs.find? id).getD (.ofId id))) else qs.find? id'
  | [] => by
    by_cases h : id' = id
    · subst h
      have hid : (f (.ofId id')).queryId = id' := hf _
      rw [update, find?_cons, if_pos hid, if_pos rfl]
      rfl
    · rw [update, find?_cons, hf, if_neg (fun heq => h heq.symm), if_neg h]
  | q :: qs => by
    rw [update]
    by_cases hq : q.queryId = id
    · rw [if_pos hq, find?_cons, hf, hq, find?_cons, if_pos hq, find?_cons, hq]
      by_cases h : id = id'
      · rw [if_pos h, if_pos h.symm]
        rfl
      · rw [if_neg h, if_neg (fun heq => h heq.symm), if_neg h]
    · rw [if_neg hq, find?_cons, find?_cons, find?_cons, if_neg hq, find?_update hf id' qs]
      by_cases h : q.queryId = id'
      · rw [if_pos h, if_pos h, if_neg fun heq => hq (h.trans heq)]
      · rw [if_neg h, if_neg h]

theorem ids_update (hf : ∀ q, (f q).queryId = q.queryId) :
    ∀ qs : Queries, (update id f qs).ids = if id ∈ qs.ids then qs.ids else qs.ids ++ [id]
  | [] => by
    have hid : (f (.ofId id)).queryId = id := hf _
    simp [update, ids, hid]
  | q :: qs => by
    have ih := ids_update hf qs
    rw [update]
    by_cases hq : q.queryId = id
    · simp [ids, hq, hf]
    · rw [if_neg hq]
      unfold ids at ih ⊢
      rw [List.map_cons, ih, List.map_cons]
      by_cases hm : id ∈ qs.map (·.queryId)
      · rw [if_pos hm, if_pos (List.mem_cons_of_mem _ hm)]
      · rw [if_neg hm, if_neg (fun h => (List.mem_cons.1 h).elim (fun heq => hq heq.symm) hm)]
        rfl

theorem nodup_update (hf : ∀ q, (f q).queryId = q.queryId) {qs : Queries} (h : qs.ids.Nodup) :
    (update id f qs).ids.Nodup := by
  rw [ids_update hf]
  split
  · exact h
  · rename_i hm
    exact List.nodup_append.2 ⟨h, by simp, fun a ha b hb hab => hm (List.mem_singleton.1 hb ▸ hab ▸ ha)⟩

theorem mem_ids_update (hf : ∀ q, (f q).queryId = q.queryId) (qs : Queries) (id' : QueryId) :
    id' ∈ (update id f qs).ids ↔ id' ∈ qs.ids ∨ id' = id := by
  rw [ids_update hf]
  split
  · rename_i hm
    exact ⟨.inl, fun h => h.elim (fun h => h) fun h => h ▸ hm⟩
  · simp

/-- One more report is one more report in all. -/
theorem perm_flatMap_addReport (r : SearchRecord) : ∀ qs : Queries,
    ((update id (.addReport r) qs).flatMap (·.searchResults)).Perm (qs.flatMap (·.searchResults) ++ [r])
  | [] => by simp [update, QueryRecord.addReport, QueryRecord.ofId]
  | q :: qs => by
    rw [update]
    split
    · simp only [List.flatMap_cons, QueryRecord.addReport, List.append_assoc]
      exact List.Perm.append_left _ List.perm_append_comm
    · simp only [List.flatMap_cons, List.append_assoc]
      exact List.Perm.append_left _ (perm_flatMap_addReport r qs)

theorem flatMap_update (hf : ∀ q, (f q).searchResults = q.searchResults) :
    ∀ qs : Queries, (update id f qs).flatMap (·.searchResults) = qs.flatMap (·.searchResults)
  | [] => by simp [update, hf, QueryRecord.ofId]
  | q :: qs => by
    rw [update]
    split
    · simp [hf]
    · simp [flatMap_update hf qs]

end Queries

/-! ## Memory -/

namespace Memory

/-- Memory keeps these entries and knows that these identifiers were issued. -/
structure Keeps (m : Memory) (l : Log) (issued : List QueryId) : Prop where
  nodup : m.queries.ids.Nodup
  known : ∀ id, id ∈ m.queries.ids ↔ id ∈ issued ∨ id ∈ l.ids
  record : ∀ id q, m.queries.find? id = some q → (q.allocatedAt.isSome ↔ id ∈ issued) ∧ q.searchResults = l.reportsOn id
  searches : (m.queries.flatMap (·.searchResults)).Perm l.searches
  feedback : m.feedback = l.feedback
  metrics : m.metrics = l.metrics

theorem keeps_empty : empty.Keeps [] [] where
  nodup := by simp [empty, Queries.ids]
  known _ := by simp [empty, Queries.ids, Log.ids, Log.searches]
  record _ _ h := by cases h
  searches := .refl _
  feedback := rfl
  metrics := rfl

variable {m : Memory} {l : Log} {issued : List QueryId}

/-- Where nothing is known of an identifier, the new record of it is right. -/
theorem Keeps.record_getD (h : m.Keeps l issued) (id : QueryId) :
    (((m.queries.find? id).getD (.ofId id)).allocatedAt.isSome ↔ id ∈ issued) ∧
      ((m.queries.find? id).getD (.ofId id)).searchResults = l.reportsOn id := by
  cases hq : m.queries.find? id with
  | some q => exact h.record id q hq
  | none =>
    rw [Queries.find?_eq_none_iff, h.known, not_or] at hq
    exact ⟨by simp [QueryRecord.ofId, hq.1], (Log.reportsOn_eq_nil hq.2).symm⟩

theorem queries_add_of_none {e : JournalEntry} (h : e.search? = none) : (m.add e).queries = m.queries := by
  cases e with
  | searchResults r => cases h
  | feedback r => rfl
  | metrics r => rfl

theorem queries_add_of_some {e : JournalEntry} {r : SearchRecord} (h : e.search? = some r) :
    (m.add e).queries = m.queries.update r.queryId (.addReport r) := by
  cases e with
  | searchResults r' =>
    obtain rfl := Option.some.inj h
    rfl
  | feedback r' => cases h
  | metrics r' => cases h

theorem feedback_add (m : Memory) (e : JournalEntry) : (m.add e).feedback = m.feedback ++ e.feedback?.toList := by
  cases e <;> simp [add, JournalEntry.feedback?]

theorem metrics_add (m : Memory) (e : JournalEntry) : (m.add e).metrics = m.metrics ++ e.metrics?.toList := by
  cases e <;> simp [add, JournalEntry.metrics?]

/-- **An entry that is added is kept behind those before it.** -/
theorem Keeps.add (h : m.Keeps l issued) (e : JournalEntry) : (m.add e).Keeps (l ++ [e]) issued := by
  have hfeedback : (m.add e).feedback = Log.feedback (l ++ [e]) := by
    rw [feedback_add, Log.feedback_append, Log.feedback_singleton, h.feedback]
  have hmetrics : (m.add e).metrics = Log.metrics (l ++ [e]) := by
    rw [metrics_add, Log.metrics_append, Log.metrics_singleton, h.metrics]
  cases he : e.search? with
  | none =>
    have hq : (m.add e).queries = m.queries := queries_add_of_none he
    have hs : Log.searches (l ++ [e]) = l.searches := by
      rw [Log.searches_append, Log.searches_singleton, he, Option.toList_none, List.append_nil]
    refine ⟨?_, fun id => ?_, fun id q hfind => ?_, ?_, hfeedback, hmetrics⟩
    · rw [hq]
      exact h.nodup
    · rw [hq, h.known, Log.ids, Log.ids, hs]
    · rw [hq] at hfind
      rw [Log.reportsOn, hs]
      exact h.record id q hfind
    · rw [hq, hs]
      exact h.searches
  | some r =>
    have hq : (m.add e).queries = m.queries.update r.queryId (.addReport r) := queries_add_of_some he
    have hf : ∀ q : QueryRecord, (q.addReport r).queryId = q.queryId := fun _ => rfl
    have hs : Log.searches (l ++ [e]) = l.searches ++ [r] := by
      rw [Log.searches_append, Log.searches_singleton, he, Option.toList_some]
    refine ⟨?_, fun id => ?_, fun id q hfind => ?_, ?_, hfeedback, hmetrics⟩
    · rw [hq]
      exact Queries.nodup_update hf h.nodup
    · rw [hq, Queries.mem_ids_update hf, h.known, Log.ids, Log.ids, hs, List.map_append, List.mem_append, or_assoc]
      simp
    · rw [hq, Queries.find?_update hf] at hfind
      rw [Log.reportsOn, hs, List.filter_append]
      split at hfind
      · rename_i hid
        subst hid
        obtain ⟨halloc, hreports⟩ := h.record_getD r.queryId
        obtain rfl := Option.some.inj hfind
        exact ⟨halloc, by simp [QueryRecord.addReport, hreports, Log.reportsOn]⟩
      · rename_i hid
        have hne : r.queryId ≠ id := fun heq => hid heq.symm
        simpa [Log.reportsOn, hne] using h.record id q hfind
    · rw [hq, hs]
      exact (Queries.perm_flatMap_addReport r m.queries).trans (h.searches.append_right [r])

theorem Keeps.foldl_add : ∀ (es : List JournalEntry) {m : Memory} {l : Log}, m.Keeps l issued →
    (es.foldl Memory.add m).Keeps (l ++ es) issued
  | [], m, l, h => by simpa using h
  | e :: es, m, l, h => by
    rw [List.foldl_cons, ← List.singleton_append, ← List.append_assoc]
    exact foldl_add es (h.add e)

/-- **Memory of entries keeps just these**, and no identifier was issued. -/
theorem keeps_ofEntries (es : List JournalEntry) : (ofEntries es).Keeps es [] :=
  keeps_empty.foldl_add es

/-- **An identifier that is issued is known**, with the reports on it that there are. -/
theorem Keeps.allocate (h : m.Keeps l issued) (now : Instant) (id : QueryId) :
    Keeps { m with queries := m.queries.update id fun q => { q with allocatedAt := some now } } l (issued ++ [id]) := by
  have hf : ∀ q : QueryRecord, { q with allocatedAt := some now }.queryId = q.queryId := fun _ => rfl
  refine ⟨Queries.nodup_update hf h.nodup, fun id' => ?_, fun id' q hq => ?_, ?_, h.feedback, h.metrics⟩
  · rw [Queries.mem_ids_update hf, h.known, List.mem_append, List.mem_singleton, or_right_comm]
  · rw [Queries.find?_update hf] at hq
    split at hq
    · rename_i hid
      subst hid
      obtain rfl := Option.some.inj hq
      exact ⟨by simp, (h.record_getD id').2⟩
    · rename_i hid
      simpa [hid] using h.record id' q hq
  · have hr : ∀ q : QueryRecord, { q with allocatedAt := some now }.searchResults = q.searchResults := fun _ => rfl
    exact (List.Perm.of_eq (Queries.flatMap_update hr m.queries)).trans h.searches

end Memory
end SearchTelemetry
