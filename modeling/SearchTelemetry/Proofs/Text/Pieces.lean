/-!
# Text.Pieces — what is cut at a mark and read piece by piece

Pieces that each have a mark behind them, and no mark within them, are cut apart again (`splitOn_flatMap`).  Behind a last
mark there may be more, and the pieces so far stay as they are (`dropLast_splitOn_append`).
-/
namespace SearchTelemetry
namespace Pieces

variable {α β : Type}

/-- Pieces are read as what they were made from just if each of them is. -/
theorem mapM_map_eq_some_iff {f : β → Option α} {g : α → β} : ∀ {as : List α},
    (as.map g).mapM f = some as ↔ ∀ a ∈ as, f (g a) = some a
  | [] => by simp
  | a :: as => by
    rw [List.map_cons, List.mapM_cons, List.forall_mem_cons, ← mapM_map_eq_some_iff]
    constructor
    · intro h
      obtain ⟨a', ha, h⟩ := Option.bind_eq_some_iff.1 h
      obtain ⟨as', has, h⟩ := Option.bind_eq_some_iff.1 h
      obtain ⟨rfl, rfl⟩ := List.cons.inj (Option.some.inj h)
      exact ⟨ha, has⟩
    · rintro ⟨ha, has⟩
      simp [ha, has]

variable [BEq α] [LawfulBEq α] {mark : α}

/-- Pieces that each have a mark behind them are the first ones that are cut off. -/
theorem splitOn_flatMap : ∀ {pieces : List (List α)}, (∀ p ∈ pieces, mark ∉ p) → ∀ rest : List α,
    (pieces.flatMap (· ++ [mark]) ++ rest).splitOn mark = pieces ++ rest.splitOn mark
  | [], _, _ => rfl
  | p :: pieces, h, rest => by
    obtain ⟨hp, hpieces⟩ := List.forall_mem_cons.1 h
    have hp : ∀ a ∈ p, (a == mark) = false := fun a ha => beq_false_of_ne fun heq => hp (heq ▸ ha)
    rw [List.flatMap_cons, List.append_assoc, List.append_assoc, List.singleton_append]
    exact (List.splitOnP_append_cons_of_forall_mem hp mark BEq.rfl _).trans
      (congrArg (p :: ·) (splitOn_flatMap hpieces rest))

/-- What ends with a mark has its pieces in front of those of what is added to it. -/
theorem dropLast_splitOn_append {as : List α} (h : ∀ a ∈ as.getLast?, a = mark) (bs : List α) :
    ((as ++ bs).splitOn mark).dropLast = (as.splitOn mark).dropLast ++ (bs.splitOn mark).dropLast := by
  have hcut : ∀ cs ds : List α, (cs ++ mark :: ds).splitOn mark = cs.splitOn mark ++ ds.splitOn mark := fun cs ds =>
    List.splitOnP_append_cons cs ds BEq.rfl
  rcases List.eq_nil_or_concat as with rfl | ⟨as, a, rfl⟩
  · simp
  · rw [List.concat_eq_append] at h ⊢
    obtain rfl : a = mark := h a (by simp)
    have hempty : (as ++ [a]).splitOn a = as.splitOn a ++ [[]] := by simpa using hcut as []
    rw [List.append_assoc, List.singleton_append, hcut, hempty, List.dropLast_append_of_ne_nil (List.splitOn_ne_nil a bs),
      List.dropLast_concat]

end Pieces
end SearchTelemetry
