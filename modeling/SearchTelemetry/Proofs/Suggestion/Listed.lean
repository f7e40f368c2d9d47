import SearchTelemetry.Suggestion
/-!
# Suggestion.Listed — one list of suggestions, cut where it is long enough

For a partial query there is one endless list: the queries reported before, in the order of rank, the endings that are not
among them, and the numbered variants.  So many suggestions are the front of it that is so long (`suggest_eq`), though a run
that wants few of them never sees the whole history, against which the endings are looked up.
-/
namespace SearchTelemetry
namespace Suggestion

/-- The endings that no query reported before is equal to, on a partial query's stem. -/
def freshEndings (counts : List (String × Nat)) (partialQuery : String) : List String :=
  (endings.map (join (stem partialQuery))).filter fun s => !(history counts partialQuery).contains s

/-- The suggestions without a number. -/
def unnumbered (counts : List (String × Nat)) (partialQuery : String) : List String :=
  history counts partialQuery ++ freshEndings counts partialQuery

variable (counts : List (String × Nat)) (partialQuery : String)

theorem suggest_of_le {n : Nat} (h : n ≤ (history counts partialQuery).length) :
    suggest counts partialQuery n = (history counts partialQuery).take n := by
  have hpast : ((history counts partialQuery).take n).length = n := List.length_take_of_le h
  unfold suggest
  dsimp only
  rw [List.take_left' hpast, List.length_append, hpast, Nat.sub_add_eq, Nat.sub_self, Nat.zero_sub, List.range_zero,
    List.map_nil, List.append_nil]

/-- **Suggestions are the unnumbered ones as far as they are wanted, and then numbered variants.** -/
theorem suggest_eq (n : Nat) :
    suggest counts partialQuery n = (unnumbered counts partialQuery).take n ++
      (List.range (n - (unnumbered counts partialQuery).length)).map (variant (stem partialQuery)) := by
  rcases Nat.lt_or_ge (history counts partialQuery).length n with hlt | hle
  · -- the whole history is there, and the endings are looked up in all of it
    unfold suggest
    dsimp only
    rw [List.take_of_length_le (Nat.le_of_lt hlt)]
    rfl
  · -- the history alone is enough, whatever endings would follow
    have hlong : n - (unnumbered counts partialQuery).length = 0 := by
      rw [unnumbered, List.length_append]
      omega
    rw [suggest_of_le counts partialQuery hle, hlong, unnumbered, List.take_append_of_le_length hle, List.range_zero,
      List.map_nil, List.append_nil]

theorem suggest_take {k m : Nat} (h : k ≤ m) : suggest counts partialQuery k = (suggest counts partialQuery m).take k := by
  rw [suggest_eq, suggest_eq, List.take_append, List.take_take, ← List.map_take, List.take_range, List.length_take,
    Nat.min_eq_left h]
  congr 3
  omega

theorem take_suggest (n : Nat) :
    (suggest counts partialQuery n).take (history counts partialQuery).length = (history counts partialQuery).take n := by
  rcases Nat.le_total n (history counts partialQuery).length with hle | hle
  · rw [suggest_of_le counts partialQuery hle, List.take_take, Nat.min_eq_right hle]
  · rw [← suggest_take counts partialQuery hle, suggest_of_le counts partialQuery (Nat.le_refl _), List.take_length,
      List.take_of_length_le hle]

end Suggestion
end SearchTelemetry
