import SearchTelemetry.Proofs.Store.Observers
import SearchTelemetry.Proofs.Suggestion.Listed
import SearchTelemetry.Proofs.Text.Ordered
/-!
# Suggestion.Ranked — the history by what was reported

What the history tells hangs only on which queries were reported and how often each was.  There is one list of the queries
that go on from the partial one in which the more frequent come first, and of equally frequent ones those of lesser bytes
(`IsRanking`); the history is this list, in whatever order the counts are given (`suggest_ranked`).
-/
namespace SearchTelemetry
namespace Suggestion

/-- A query goes on from a partial one: in lower case it begins with it, blanks at the ends aside, and is not it alone. -/
def GoesOn (partialQuery query : String) : Prop :=
  Lowercase.lower (Blank.trim partialQuery.toList) <+: Lowercase.lower query.toList ∧
    Lowercase.lower query.toList ≠ Lowercase.lower (Blank.trim partialQuery.toList)

/-- The more frequent query goes first, of equally frequent ones that of lesser bytes. -/
def Outranks (reported : Multiset String) (a b : String) : Prop :=
  reported.count b < reported.count a ∨ reported.count a = reported.count b ∧ Utf8.bytes a < Utf8.bytes b

/-- A list of just the queries among the reported ones that go on from a partial one, in the order of rank. -/
structure IsRanking (reported : Multiset String) (partialQuery : String) (past : List String) : Prop where
  mem_iff : ∀ query, query ∈ past ↔ query ∈ reported ∧ query ≠ "" ∧ GoesOn partialQuery query
  sorted : past.Pairwise (Outranks reported)

/-- The counts of the queries that go on from a partial one, in the order of rank. -/
def ranked (counts : List (String × Nat)) (partialQuery : String) : List (String × Nat) :=
  (counts.filter fun c => extends? (Lowercase.lower (Blank.trim partialQuery.toList)) c.1).mergeSort ranksBefore

variable {reported : Multiset String} {partialQuery : String} {counts : List (String × Nat)} {s : Store}

/-! ## One ranking -/

theorem Outranks.asymm {a b : String} (h : Outranks reported a b) : ¬ Outranks reported b a := by
  rintro (hlt | ⟨heq, hlt⟩) <;> rcases h with hlt' | ⟨heq', hlt'⟩
  · omega
  · omega
  · omega
  · exact List.lt_asymm hlt hlt'

theorem IsRanking.nodup {past : List String} (h : IsRanking reported partialQuery past) : past.Nodup :=
  h.sorted.imp fun hab heq => (heq ▸ hab).asymm (heq ▸ hab)

/-- **There is one ranking.** -/
theorem IsRanking.unique {past past' : List String} (h : IsRanking reported partialQuery past)
    (h' : IsRanking reported partialQuery past') : past = past' := by
  have hperm : past.Perm past' :=
    (List.perm_ext_iff_of_nodup h.nodup h'.nodup).2 fun query => (h.mem_iff query).trans (h'.mem_iff query).symm
  exact hperm.eq_of_pairwise (fun a b _ _ hab hba => absurd hba hab.asymm) h.sorted h'.sorted

/-! ## The history -/

theorem extends?_iff (query : String) :
    extends? (Lowercase.lower (Blank.trim partialQuery.toList)) query = true ↔ GoesOn partialQuery query := by
  simp [extends?, GoesOn, List.isPrefixOf_iff_prefix]

theorem ranksBefore_trans (a b c : String × Nat) (hab : ranksBefore a b = true) (hbc : ranksBefore b c = true) :
    ranksBefore a c = true := by
  simp only [ranksBefore, Bool.or_eq_true, Bool.and_eq_true, decide_eq_true_eq, beq_iff_eq] at *
  rcases hab with hab | ⟨hab, hle⟩ <;> rcases hbc with hbc | ⟨hbc, hle'⟩
  · exact .inl (by omega)
  · exact .inl (by omega)
  · exact .inl (by omega)
  · exact .inr ⟨hab.trans hbc, String.le_trans hle hle'⟩

theorem ranksBefore_total (a b : String × Nat) : (ranksBefore a b || ranksBefore b a) = true := by
  simp only [ranksBefore, Bool.or_eq_true, Bool.and_eq_true, decide_eq_true_eq, beq_iff_eq]
  rcases Nat.lt_trichotomy a.2 b.2 with hlt | heq | hlt
  · exact .inr (.inl hlt)
  · exact (String.le_total a.1 b.1).imp (fun hle => .inr ⟨heq, hle⟩) fun hle => .inr ⟨heq.symm, hle⟩
  · exact .inl (.inl hlt)

theorem history_eq_map_ranked (counts : List (String × Nat)) (partialQuery : String) :
    history counts partialQuery = (ranked counts partialQuery).map (·.1) := rfl

theorem mem_ranked {c : String × Nat} : c ∈ ranked counts partialQuery ↔ c ∈ counts ∧ GoesOn partialQuery c.1 := by
  rw [ranked, List.mem_mergeSort, List.mem_filter, extends?_iff]

theorem pairwise_ranked (counts : List (String × Nat)) (partialQuery : String) :
    (ranked counts partialQuery).Pairwise fun a b => ranksBefore a b = true :=
  List.pairwise_mergeSort ranksBefore_trans ranksBefore_total _

theorem pairwise_ne_ranked (h : counts.Perm s.rawQueryCounts) (partialQuery : String) :
    (ranked counts partialQuery).Pairwise fun a b => a.1 ≠ b.1 := by
  have hcounts : counts.Pairwise fun a b => a.1 ≠ b.1 :=
    List.pairwise_map.1 ((h.map _).nodup_iff.2 s.nodup_keys_rawQueryCounts)
  exact (List.mergeSort_perm _ _).symm.pairwise (hcounts.filter _) fun hab => hab.symm

theorem mem_history_of_perm (h : counts.Perm s.rawQueryCounts) (query : String) :
    query ∈ history counts partialQuery ↔ query ∈ s.reported ∧ query ≠ "" ∧ GoesOn partialQuery query := by
  have hcount : ∀ n, (query, n) ∈ counts ↔ query ≠ "" ∧ query ∈ s.reported ∧ n = s.reported.count query :=
    fun n => h.mem_iff.trans (s.mem_rawQueryCounts query n)
  rw [history_eq_map_ranked, List.mem_map]
  constructor
  · rintro ⟨⟨query, n⟩, hmem, rfl⟩
    obtain ⟨hmem, hgoes⟩ := mem_ranked.1 hmem
    obtain ⟨hne, hreported, -⟩ := (hcount n).1 hmem
    exact ⟨hreported, hne, hgoes⟩
  · rintro ⟨hreported, hne, hgoes⟩
    exact ⟨(query, _), mem_ranked.2 ⟨(hcount _).2 ⟨hne, hreported, rfl⟩, hgoes⟩, rfl⟩

theorem history_singleton (query : String) (n : Nat) (partialQuery : String) :
    history [(query, n)] partialQuery =
      if extends? (Lowercase.lower (Blank.trim partialQuery.toList)) query then [query] else [] := by
  by_cases hquery : extends? (Lowercase.lower (Blank.trim partialQuery.toList)) query = true
  · simp [history, hquery]
  · simp [history, hquery]

theorem outranks_of_ranksBefore {a b : String × Nat} (ha : a ∈ s.rawQueryCounts) (hb : b ∈ s.rawQueryCounts)
    (hne : a.1 ≠ b.1) (hrank : ranksBefore a b = true) : Outranks s.reported a.1 b.1 := by
  obtain ⟨-, -, hcounta⟩ := (s.mem_rawQueryCounts a.1 a.2).1 ha
  obtain ⟨-, -, hcountb⟩ := (s.mem_rawQueryCounts b.1 b.2).1 hb
  simp only [ranksBefore, Bool.or_eq_true, Bool.and_eq_true, decide_eq_true_eq, beq_iff_eq] at hrank
  rw [Outranks, ← hcounta, ← hcountb]
  exact hrank.imp_right fun ⟨heq, hle⟩ => ⟨heq, Utf8.bytes_lt_bytes (Std.lt_of_le_of_ne hle hne)⟩

/-- **The history is the ranking of what was reported**, in whatever order the counts are given. -/
theorem isRanking_history (h : counts.Perm s.rawQueryCounts) (partialQuery : String) :
    IsRanking s.reported partialQuery (history counts partialQuery) := by
  have hcounted : ∀ c ∈ ranked counts partialQuery, c ∈ s.rawQueryCounts := fun c hc => h.mem_iff.1 (mem_ranked.1 hc).1
  have hranked := (pairwise_ne_ranked h partialQuery).and (pairwise_ranked counts partialQuery)
  refine ⟨mem_history_of_perm h, List.pairwise_map.2 (hranked.imp_of_mem fun ha hb ⟨hne, hrank⟩ => ?_)⟩
  exact outranks_of_ranksBefore (hcounted _ ha) (hcounted _ hb) hne hrank

/-- **Suggestions hang on the reported queries alone, and on how often each was.**  The history is the ranking of the queries
that were reported, and no other list is; as many of the suggestions as it has are its first ones.  Two stores in which the
same queries were reported equally often give the same suggestions, in whatever order either tells its counts.  What is
reported to a store are the queries of the reports that it accepted. -/
theorem suggest_ranked (h : counts.Perm s.rawQueryCounts) (partialQuery : String) :
    (∀ past, IsRanking s.reported partialQuery past ↔ past = history counts partialQuery) ∧
    (∀ n, (suggest counts partialQuery n).take (history counts partialQuery).length =
      (history counts partialQuery).take n) ∧
    (∀ (s' : Store) (counts' : List (String × Nat)), counts'.Perm s'.rawQueryCounts → s'.reported = s.reported →
      ∀ n, suggest counts' partialQuery n = suggest counts partialQuery n) ∧
    ∀ (l : Log) (ids : List QueryId), s.memory.Keeps l ids → s.reported = (l.searches.map (·.rawQuery) : List String) := by
  have hranking := isRanking_history h partialQuery
  refine ⟨fun past => ⟨fun hpast => hpast.unique hranking, fun hpast => hpast ▸ hranking⟩, take_suggest counts partialQuery,
    fun s' counts' h' hsame n => ?_, fun l ids hkeeps => Store.reported_of_keeps hkeeps⟩
  have hhistory : history counts' partialQuery = history counts partialQuery :=
    (hsame ▸ isRanking_history h' partialQuery).unique hranking
  unfold suggest
  rw [hhistory]

theorem suggest_ranked_shuffled :
    let report (id : QueryId) (query : String) : JournalEntry := .searchResults ⟨id, query, [], none, ⟨0, 0⟩, ⟨0, 0⟩⟩
    let s : Store := ⟨.ofEntries [report 1 "Best b", report 2 "best a", report 1 "x", report 3 "best a"], none⟩
    let counts := [("x", 1), ("best a", 2), ("Best b", 1)]
    counts.Perm s.rawQueryCounts ∧ history counts " bEST" = ["best a", "Best b"] ∧
      (∀ past, IsRanking s.reported " bEST" past ↔ past = ["best a", "Best b"]) ∧
      ∀ n, suggest s.rawQueryCounts " bEST" n = suggest counts " bEST" n := by
  intro report s counts
  have hcounts : counts.Perm s.rawQueryCounts := by decide +kernel
  have hmatching : counts.filter (fun c => extends? (Lowercase.lower (Blank.trim " bEST".toList)) c.1) =
      [("best a", 2), ("Best b", 1)] := by decide +kernel
  have hsorted : [("best a", 2), ("Best b", 1)].Pairwise fun a b => ranksBefore a b = true := by decide
  have hhistory : history counts " bEST" = ["best a", "Best b"] := by
    dsimp only [history]
    rw [hmatching, List.mergeSort_of_pairwise hsorted]
    rfl
  obtain ⟨hranking, -, hsame, -⟩ := suggest_ranked hcounts " bEST"
  exact ⟨hcounts, hhistory, hhistory ▸ hranking, hsame s s.rawQueryCounts (.refl _) rfl⟩

end Suggestion
end SearchTelemetry
