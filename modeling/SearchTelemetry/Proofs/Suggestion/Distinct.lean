import Mathlib.Data.List.Nodup
import SearchTelemetry.Proofs.Suggestion.Ranked
import SearchTelemetry.Proofs.Text.Numeral
/-!
# Suggestion.Distinct — when a suggestion is made twice

The history has no query twice, the endings on the stem are not among it, and no ending is a numbered variant.  But the
variants are not looked up in the history: the suggestions are distinct just as long as none of the variants that they come
to was reported before (`nodup_suggest_iff`).
-/
namespace SearchTelemetry
namespace Suggestion

variable {counts : List (String × Nat)} {partialQuery : String} {s : Store}

theorem join_inj {stem a b : String} (h : join stem a = join stem b) : a = b := by
  unfold join at h
  split at h
  · exact h
  · exact (String.append_right_inj _).1 h

theorem variant_eq_join (stem : String) (i : Nat) :
    variant stem i = join stem ("more (" ++ (Numeral.text (i + 1) ++ ")")) := by
  have hmore : "more (" = "more" ++ " (" := by decide
  unfold variant join
  split
  · simp only [hmore, String.append_assoc]
  · simp only [hmore, String.append_assoc]

theorem variant_inj {stem : String} {i j : Nat} (h : variant stem i = variant stem j) : i = j := by
  rw [variant_eq_join, variant_eq_join] at h
  have htext := (String.append_left_inj _).1 ((String.append_right_inj _).1 (join_inj h))
  exact Nat.succ_injective (Numeral.text_inj htext)

theorem variant_notMem_freshEndings (i : Nat) : variant (stem partialQuery) i ∉ freshEndings counts partialQuery := by
  intro hmem
  obtain ⟨ending, hending, heq⟩ := List.mem_map.1 (List.mem_filter.1 hmem).1
  rw [variant_eq_join] at heq
  have hmore : ∀ e ∈ endings, ¬ "more (".toList <+: e.toList := by decide
  refine hmore ending hending ?_
  rw [join_inj heq, String.toList_append]
  exact List.prefix_append _ _

theorem nodup_freshEndings (counts : List (String × Nat)) (partialQuery : String) :
    (freshEndings counts partialQuery).Nodup := by
  have hendings : endings.Nodup := by decide
  exact (hendings.map fun a b h => join_inj h).filter _

theorem nodup_unnumbered (h : counts.Perm s.rawQueryCounts) (partialQuery : String) :
    (unnumbered counts partialQuery).Nodup := by
  refine List.nodup_append.2 ⟨(isRanking_history h partialQuery).nodup, nodup_freshEndings counts partialQuery, ?_⟩
  intro query hquery ending hending heq
  have hfresh := (List.mem_filter.1 hending).2
  simp [← heq, hquery] at hfresh

/-- **Suggestions are distinct just as long as they come to no numbered variant that is in the history.** -/
theorem nodup_suggest_iff (h : counts.Perm s.rawQueryCounts) (partialQuery : String) (n : Nat) :
    (suggest counts partialQuery n).Nodup ↔
      ∀ i, (unnumbered counts partialQuery).length + i < n →
        variant (stem partialQuery) i ∉ history counts partialQuery := by
  have hunnumbered := nodup_unnumbered h partialQuery
  have hvariants : ((List.range (n - (unnumbered counts partialQuery).length)).map (variant (stem partialQuery))).Nodup :=
    List.nodup_range.map fun i j hij => variant_inj hij
  rw [suggest_eq, List.nodup_append]
  constructor
  · rintro ⟨-, -, hdisjoint⟩ i hi hmem
    -- variants come only when all that has no number is there, the whole history with it
    rw [List.take_of_length_le (by omega)] at hdisjoint
    have hi' : i ∈ List.range (n - (unnumbered counts partialQuery).length) := List.mem_range.2 (by omega)
    exact hdisjoint _ (List.mem_append_left _ hmem) _ (List.mem_map_of_mem hi') rfl
  · intro hnot
    refine ⟨hunnumbered.sublist (List.take_sublist _ _), hvariants, fun query hquery v hv heq => ?_⟩
    obtain ⟨i, hi, rfl⟩ := List.mem_map.1 hv
    subst heq
    rcases List.mem_append.1 (List.mem_of_mem_take hquery) with hmem | hmem
    · exact hnot i (by have := List.mem_range.1 hi; omega) hmem
    · exact variant_notMem_freshEndings i hmem

theorem nodup_suggest_reported :
    let s : Store := ⟨.ofEntries [.searchResults ⟨1, "rust more (2)", [], none, ⟨0, 0⟩, ⟨0, 0⟩⟩], none⟩
    [("rust more (2)", 1)].Perm s.rawQueryCounts ∧ history [("rust more (2)", 1)] "rust" = ["rust more (2)"] ∧
      (suggest [("rust more (2)", 1)] "rust" 10).Nodup ∧ ¬ (suggest [("rust more (2)", 1)] "rust" 11).Nodup := by
  intro s
  have hcounts : [("rust more (2)", 1)].Perm s.rawQueryCounts := by decide +kernel
  have hhistory : history [("rust more (2)", 1)] "rust" = ["rust more (2)"] := by
    rw [history_singleton]
    decide +kernel
  have hlength : (unnumbered [("rust more (2)", 1)] "rust").length = 9 := by
    rw [unnumbered, freshEndings, hhistory]
    decide +kernel
  refine ⟨hcounts, hhistory, (nodup_suggest_iff hcounts "rust" 10).2 fun i hi => ?_, fun hnodup => ?_⟩
  · obtain rfl : i = 0 := by omega
    rw [hhistory]
    decide +kernel
  · refine (nodup_suggest_iff hcounts "rust" 11).1 hnodup 1 (by omega) ?_
    rw [hhistory]
    decide +kernel

/-- The first numbered variant is suggested a second time when it was reported before. -/
theorem variant_suggested_twice :
    let s : Store := ⟨.ofEntries [.searchResults ⟨1, "rust more (1)", [], none, ⟨0, 0⟩, ⟨0, 0⟩⟩], none⟩
    suggest s.rawQueryCounts "rust" 10 =
        ["rust more (1)", "rust near me", "rust tutorial", "rust examples", "rust for beginners", "rust best practices",
          "rust reddit", "rust vs alternatives", "rust meaning", "rust more (1)"] ∧
      ¬ (suggest s.rawQueryCounts "rust" 10).Nodup := by
  intro s
  have hcounts : s.rawQueryCounts = [("rust more (1)", 1)] := by decide +kernel
  have hhistory : history s.rawQueryCounts "rust" = ["rust more (1)"] := by
    rw [hcounts, history_singleton]
    decide +kernel
  unfold suggest
  rw [hhistory]
  decide +kernel

end Suggestion
end SearchTelemetry
