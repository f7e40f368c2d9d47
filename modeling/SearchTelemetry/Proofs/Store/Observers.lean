import Mathlib.Data.Finset.Card
import SearchTelemetry.Proofs.Store.Log
/-!
# Store.Observers — what a store tells, by its log

A store whose memory keeps a log tells of an identifier if it was issued or a report names it, and then tells the reports
on it in order (`query_eq_notFound_iff`, `query_eq_ok`).  What it counts are the identifiers and entries of the log
(`summary_eq`) and the queries in it (`lookup_rawQueryCounts`): each query that was reported is counted once, with as many
reports as there are of it, whatever identifiers they are on (`mem_rawQueryCounts`).
-/
namespace SearchTelemetry
namespace Store

variable {s : Store} {l : Log} {ids : List QueryId}

/-! ## Queries -/

theorem query_eq (s : Store) (id : QueryId) :
    s.query id = (s.memory.queries.find? id).elim
      (.error (.notFound ("query_ID " ++ Numeral.intText id.toInt ++ " is unknown"))) .ok := by
  unfold query
  cases s.memory.queries.find? id <;> rfl

/-- **Nothing is told of an identifier just if it was not issued and no report names it.** -/
theorem query_eq_notFound_iff (h : s.memory.Keeps l ids) (id : QueryId) :
    (∃ message, s.query id = .error (.notFound message)) ↔ id ∉ ids ∧ id ∉ l.ids := by
  rw [← not_or, ← h.known, ← Queries.find?_eq_none_iff, query_eq]
  cases s.memory.queries.find? id with
  | none => exact iff_of_true ⟨_, rfl⟩ rfl
  | some q => exact iff_of_false (fun ⟨_, hq⟩ => nomatch hq) (fun hq => nomatch hq)

/-- There is no other way to tell nothing. -/
theorem exists_of_query_eq_error {id : QueryId} {fault : Fault} (h : s.query id = .error fault) :
    ∃ message, fault = .notFound message := by
  rw [query_eq] at h
  cases hq : s.memory.queries.find? id with
  | none =>
    rw [hq] at h
    exact ⟨_, (Except.error.inj h).symm⟩
  | some q =>
    rw [hq] at h
    cases h

/-- **What is told of an identifier**: when it was issued, if it was, and the reports on it in order. -/
theorem query_eq_ok (h : s.memory.Keeps l ids) {id : QueryId} {q : QueryRecord} (hq : s.query id = .ok q) :
    q.queryId = id ∧ (q.allocatedAt.isSome ↔ id ∈ ids) ∧ q.searchResults = l.reportsOn id := by
  rw [query_eq] at hq
  cases hf : s.memory.queries.find? id with
  | none =>
    rw [hf] at hq
    cases hq
  | some q' =>
    rw [hf] at hq
    obtain rfl : q' = q := Except.ok.inj hq
    exact ⟨Queries.queryId_of_find? hf, h.record id q' hf⟩

/-! ## Counts -/

theorem summary_eq (h : s.memory.Keeps l ids) :
    s.summary = ⟨(ids ++ l.ids).toFinset.card, l.searches.length, l.feedback.length, l.metrics.length⟩ := by
  have hids : s.memory.queries.length = (ids ++ l.ids).toFinset.card := by
    have hset : s.memory.queries.ids.toFinset = (ids ++ l.ids).toFinset := by
      ext id
      rw [List.mem_toFinset, List.mem_toFinset, h.known, List.mem_append]
    rw [← hset, List.toFinset_card_of_nodup h.nodup, Queries.ids, List.length_map]
  unfold summary
  rw [hids, h.searches.length_eq, h.feedback, h.metrics]

theorem lookup_cons (q t : String) (n : Nat) (counts : List (String × Nat)) :
    ((t, n) :: counts).lookup q = if q = t then some n else counts.lookup q := by
  by_cases h : q = t
  · simp [h]
  · rw [List.lookup_cons, beq_false_of_ne h, if_neg h]

theorem lookup_bump (text q : String) : ∀ counts : List (String × Nat),
    (bump text counts).lookup q = if q = text then some ((counts.lookup q).getD 0 + 1) else counts.lookup q
  | [] => by
    rw [bump, lookup_cons]
    simp
  | (t, n) :: counts => by
    rw [bump]
    by_cases ht : t = text
    · subst ht
      rw [if_pos rfl, lookup_cons, lookup_cons]
      by_cases h : q = t
      · simp [h]
      · simp [h]
    · rw [if_neg ht, lookup_cons, lookup_cons, lookup_bump text q counts]
      by_cases h : q = t
      · subst h
        simp [ht]
      · simp [h]

/-- A text that is not counted has no count. -/
theorem lookup_foldl_bump (q : String) : ∀ (rs : List SearchRecord) (counts : List (String × Nat)),
    (rs.foldl (fun counts r => bump r.rawQuery counts) counts).lookup q =
      if rs.countP (·.rawQuery = q) = 0 then counts.lookup q
      else some ((counts.lookup q).getD 0 + rs.countP (·.rawQuery = q))
  | [], _ => rfl
  | r :: rs, counts => by
    rw [List.foldl_cons, lookup_foldl_bump q rs, lookup_bump, List.countP_cons]
    by_cases h : q = r.rawQuery
    · by_cases hrs : rs.countP (·.rawQuery = q) = 0
      · simp [← h, hrs]
      · simp [← h, hrs]
        omega
    · have hne : r.rawQuery ≠ q := fun heq => h heq.symm
      simp [h, hne]

/-! ## Reported queries -/

/-- The raw queries of the search reports that a store keeps, one for each report on any identifier. -/
def reported (s : Store) : Multiset String :=
  ((s.memory.queries.flatMap (·.searchResults)).map (·.rawQuery) : List String)

theorem count_reported (s : Store) (q : String) :
    s.reported.count q = (s.memory.queries.flatMap (·.searchResults)).countP (·.rawQuery = q) := by
  rw [reported, Multiset.coe_count, List.count, List.countP_map]
  exact List.countP_congr fun r _ => by simp

/-- The reported queries are those of the reports that were accepted. -/
theorem reported_of_keeps (h : s.memory.Keeps l ids) : s.reported = (l.searches.map (·.rawQuery) : List String) :=
  Multiset.coe_eq_coe.2 (h.searches.map _)

/-- **A query's count is the number of reports of it**; the empty query has none. -/
theorem lookup_rawQueryCounts_reported (s : Store) (q : String) :
    s.rawQueryCounts.lookup q = if q = "" ∨ s.reported.count q = 0 then none else some (s.reported.count q) := by
  have hcount : ((s.memory.queries.flatMap (·.searchResults)).filter (·.rawQuery ≠ "")).countP (·.rawQuery = q) =
      if q = "" then 0 else s.reported.count q := by
    rw [List.countP_filter, count_reported]
    split
    · rename_i hq
      subst hq
      simp
    · rename_i hq
      refine List.countP_congr fun r _ => ?_
      simp only [decide_eq_true_eq, Bool.and_eq_true, and_iff_left_iff_imp]
      rintro rfl
      exact hq
  unfold rawQueryCounts
  rw [lookup_foldl_bump, hcount]
  by_cases hq : q = ""
  · simp [hq]
  · simp [hq]

theorem lookup_rawQueryCounts (h : s.memory.Keeps l ids) (q : String) :
    s.rawQueryCounts.lookup q =
      if q = "" ∨ l.searches.countP (·.rawQuery = q) = 0 then none else some (l.searches.countP (·.rawQuery = q)) := by
  rw [lookup_rawQueryCounts_reported, count_reported, h.searches.countP_eq]

theorem keys_bump (text : String) : ∀ counts : List (String × Nat),
    (bump text counts).map (·.1) =
      if text ∈ counts.map (·.1) then counts.map (·.1) else counts.map (·.1) ++ [text]
  | [] => rfl
  | (t, n) :: counts => by
    rw [bump]
    by_cases ht : t = text
    · simp [ht]
    · rw [if_neg ht, List.map_cons, keys_bump text counts, List.map_cons]
      by_cases hm : text ∈ counts.map (·.1)
      · rw [if_pos hm, if_pos (List.mem_cons_of_mem _ hm)]
      · rw [if_neg hm, if_neg fun h => (List.mem_cons.1 h).elim (fun heq => ht heq.symm) hm]
        rfl

theorem nodup_keys_bump (text : String) {counts : List (String × Nat)} (h : (counts.map (·.1)).Nodup) :
    ((bump text counts).map (·.1)).Nodup := by
  rw [keys_bump]
  split
  · exact h
  · rename_i hm
    exact List.nodup_append.2 ⟨h, by simp, fun a ha b hb hab => hm (List.mem_singleton.1 hb ▸ hab ▸ ha)⟩

theorem nodup_keys_foldl_bump : ∀ (rs : List SearchRecord) {counts : List (String × Nat)},
    (counts.map (·.1)).Nodup → ((rs.foldl (fun counts r => bump r.rawQuery counts) counts).map (·.1)).Nodup
  | [], _, h => h
  | r :: rs, _, h => nodup_keys_foldl_bump rs (nodup_keys_bump r.rawQuery h)

/-- **Every query is counted once.** -/
theorem nodup_keys_rawQueryCounts (s : Store) : (s.rawQueryCounts.map (·.1)).Nodup :=
  nodup_keys_foldl_bump _ List.nodup_nil

theorem mem_iff_lookup {q : String} {n : Nat} : ∀ {counts : List (String × Nat)}, (counts.map (·.1)).Nodup →
    ((q, n) ∈ counts ↔ counts.lookup q = some n)
  | [], _ => by simp
  | (t, m) :: counts, h => by
    rw [List.map_cons, List.nodup_cons] at h
    rw [lookup_cons, List.mem_cons, mem_iff_lookup h.2]
    split
    · rename_i hq
      subst hq
      have hnone : counts.lookup q ≠ some n := fun hn =>
        h.1 (List.mem_map.2 ⟨(q, n), (mem_iff_lookup h.2).2 hn, rfl⟩)
      simp [hnone, eq_comm]
    · rename_i hq
      simp [hq]

theorem mem_rawQueryCounts (s : Store) (q : String) (n : Nat) :
    (q, n) ∈ s.rawQueryCounts ↔ q ≠ "" ∧ q ∈ s.reported ∧ n = s.reported.count q := by
  rw [mem_iff_lookup s.nodup_keys_rawQueryCounts, lookup_rawQueryCounts_reported, ← Multiset.count_pos, Nat.pos_iff_ne_zero]
  by_cases hq : q = ""
  · simp [hq]
  · by_cases hc : s.reported.count q = 0
    · simp [hc]
    · simp [hq, hc, eq_comm]

end Store
end SearchTelemetry
