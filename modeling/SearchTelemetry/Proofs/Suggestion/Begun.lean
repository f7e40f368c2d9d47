import SearchTelemetry.Proofs.Suggestion.Ranked
import SearchTelemetry.Proofs.Text.Lowered
/-!
# Suggestion.Begun — whoever has begun a query is offered it

A query that was reported is in the history for every beginning of it, with one exception: where the beginning ends in a
sigma, that sigma is the last of a word, and has its final form in lower case, but it may not be the last of the word in the
whole query (`mem_history_iff_of_begun`).
-/
namespace SearchTelemetry
namespace Suggestion

variable {counts : List (String × Nat)} {partialQuery query : String} {rest : List Char} {s : Store}

theorem goesOn_iff_of_begun (htrim : Blank.trim partialQuery.toList = partialQuery.toList) (hrest : rest ≠ [])
    (hquery : query.toList = partialQuery.toList ++ rest) :
    GoesOn partialQuery query ↔
      ¬ (Lowercase.EndsInSigma [] partialQuery.toList ∧ Lowercase.leadsCased rest = true) := by
  rw [GoesOn, htrim, hquery, Lowercase.lower_isPrefix_append_iff]
  exact and_iff_left (Lowercase.lower_append_ne hrest _)

theorem mem_suggest_of_mem_history (h : query ∈ history counts partialQuery) {n : Nat}
    (hn : (history counts partialQuery).length ≤ n) : query ∈ suggest counts partialQuery n := by
  rw [← List.take_of_length_le hn, ← take_suggest] at h
  exact List.mem_of_mem_take h

/-- **A reported query is in the history for every beginning of it that ends in no sigma**, case-ignorable characters aside,
and for one that does just if the rest of the query does not go on with the word.  What is in the history is among the
suggestions if these are as many as it has. -/
theorem mem_history_iff_of_begun (h : counts.Perm s.rawQueryCounts) (hreported : query ∈ s.reported)
    (htrim : Blank.trim partialQuery.toList = partialQuery.toList) (hrest : rest ≠ [])
    (hquery : query.toList = partialQuery.toList ++ rest) :
    (query ∈ history counts partialQuery ↔
      ¬ (Lowercase.EndsInSigma [] partialQuery.toList ∧ Lowercase.leadsCased rest = true)) ∧
    (query ∈ history counts partialQuery →
      ∀ n, (history counts partialQuery).length ≤ n → query ∈ suggest counts partialQuery n) := by
  have hne : query ≠ "" := by
    rintro rfl
    exact hrest (List.append_eq_nil_iff.1 hquery.symm).2
  refine ⟨?_, fun hmem n hn => mem_suggest_of_mem_history hmem hn⟩
  rw [mem_history_of_perm h, goesOn_iff_of_begun htrim hrest hquery]
  exact ⟨fun hmem => hmem.2.2, fun hgoes => ⟨hreported, hne, hgoes⟩⟩

theorem mem_history_iff_of_begun_word :
    let s : Store := ⟨.ofEntries [.searchResults ⟨1, "ΟΔΟΣ 5", [], none, ⟨0, 0⟩, ⟨0, 0⟩⟩], none⟩
    "ΟΔΟΣ 5" ∈ s.reported ∧ Blank.trim "ΟΔΟΣ".toList = "ΟΔΟΣ".toList ∧ " 5".toList ≠ [] ∧
      "ΟΔΟΣ 5".toList = "ΟΔΟΣ".toList ++ " 5".toList ∧ Lowercase.EndsInSigma [] "ΟΔΟΣ".toList ∧
      "ΟΔΟΣ 5" ∈ history s.rawQueryCounts "ΟΔΟΣ" ∧ "ΟΔΟΣ 5" ∈ suggest s.rawQueryCounts "ΟΔΟΣ" 1 := by
  intro s
  have hreported : "ΟΔΟΣ 5" ∈ s.reported := by decide +kernel
  have htrim : Blank.trim "ΟΔΟΣ".toList = "ΟΔΟΣ".toList := by decide +kernel
  have hrest : " 5".toList ≠ [] := by decide +kernel
  have hquery : "ΟΔΟΣ 5".toList = "ΟΔΟΣ".toList ++ " 5".toList := by decide +kernel
  have hsigma : Lowercase.EndsInSigma [] "ΟΔΟΣ".toList :=
    ⟨"ΟΔΟ".toList, [], by decide +kernel, by decide +kernel, rfl⟩
  have hspace : Lowercase.leadsCased " 5".toList = false := by decide +kernel
  obtain ⟨hiff, hoffered⟩ := mem_history_iff_of_begun (.refl s.rawQueryCounts) hreported htrim hrest hquery
  have hmem : "ΟΔΟΣ 5" ∈ history s.rawQueryCounts "ΟΔΟΣ" :=
    hiff.2 fun hends => Bool.false_ne_true (hspace.symm.trans hends.2)
  have hcounts : s.rawQueryCounts = [("ΟΔΟΣ 5", 1)] := by decide +kernel
  refine ⟨hreported, htrim, hrest, hquery, hsigma, hmem, hoffered hmem 1 ?_⟩
  rw [hcounts, history_singleton]
  split <;> decide

/-- A query that was reported is missed by its beginning, where that ends in a sigma within a word. -/
theorem begun_query_missed :
    let s : Store := ⟨.ofEntries [.searchResults ⟨1, "ΑΣΤΡΟ", [], none, ⟨0, 0⟩, ⟨0, 0⟩⟩], none⟩
    "ΑΣΤΡΟ" ∈ s.reported ∧ Blank.trim "ΑΣ".toList = "ΑΣ".toList ∧ "ΑΣΤΡΟ".toList = "ΑΣ".toList ++ "ΤΡΟ".toList ∧
      history s.rawQueryCounts "ΑΣ" = [] ∧ suggest s.rawQueryCounts "ΑΣ" 1 = ["ΑΣ near me"] := by
  intro s
  have hcounts : s.rawQueryCounts = [("ΑΣΤΡΟ", 1)] := by decide +kernel
  have hhistory : history s.rawQueryCounts "ΑΣ" = [] := by
    rw [hcounts, history_singleton]
    decide +kernel
  refine ⟨by decide +kernel, by decide +kernel, by decide +kernel, hhistory, ?_⟩
  unfold suggest
  rw [hhistory]
  decide +kernel

end Suggestion
end SearchTelemetry
