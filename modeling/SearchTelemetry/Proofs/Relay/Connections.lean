import SearchTelemetry.Proofs.Relay.Moves
import SearchTelemetry.Relay.Server
/-!
# Relay.Connections — each connection of a relay runs as if it were alone

Of all that happens to a relay, a connection hears what is meant for it, from the moment it is accepted (`Server.heard`).  What
the relay does on the connection is what the connection does on its own when it hears just this (`run_of_none`).  On a number
that is no connection's nothing is done (`actsOf_run_of_absent`), nor on a connection that is closed (`actsOf_run_of_closed`).
-/
namespace SearchTelemetry
namespace Relay

/-! ## Runs of a connection -/

namespace Connection

variable {c : Context} {k : Connection}

theorem run_append (c : Context) (k : Connection) (a b : List (Moment × Happening)) :
    k.run c (a ++ b) = Step.after (k.run c a).2 ((k.run c a).1.run c b) := by
  induction a generalizing k with
  | nil => rfl
  | cons mh a ih =>
    obtain ⟨m, h⟩ := mh
    have hrest := ih (k.step c m h).1
    show Step.after (k.step c m h).2 ((k.step c m h).1.run c (a ++ b)) = _
    rw [hrest, Step.after_after]
    rfl

theorem run_of_closed (h : k.phase = .closed) (hs : List (Moment × Happening)) :
    (k.run c hs).1.phase = .closed ∧ (k.run c hs).2 = [] := by
  induction hs generalizing k with
  | nil => exact ⟨h, rfl⟩
  | cons mh hs ih =>
    obtain ⟨m, e⟩ := mh
    obtain ⟨hclosed, hacts⟩ := step_of_closed c m h e
    obtain ⟨hend, hnothing⟩ := ih hclosed
    refine ⟨hend, ?_⟩
    show (k.step c m e).2 ++ ((k.step c m e).1.run c hs).2 = []
    rw [hacts, hnothing]
    rfl

end Connection

/-! ## Runs of a relay -/

namespace Server

/-- What a relay does on the connection of a number. -/
def actsOf (number : Nat) (acts : List (Nat × Act)) : List Act :=
  acts.filterMap fun p => if p.1 = number then some p.2 else none

/-- What of an occurrence reaches the connection of a number. -/
def reaching (s : Server) (number : Nat) (m : Moment) : Occurrence → List (Moment × Happening)
  | .on n h => if n = number ∧ number ≤ s.connections.length ∧ s.permits h then [(m, h)] else []
  | _ => []

/-- What happens to the connection of a number, in order. -/
def heard (c : Context) (number : Nat) : Server → List (Moment × Occurrence) → List (Moment × Happening)
  | _, [] => []
  | s, (m, o) :: os => s.reaching number m o ++ heard c number (s.step c m o).1 os

variable {c : Context} {m : Moment} {s : Server} {i number : Nat} {k : Connection}

theorem actsOf_append (number : Nat) (a b : List (Nat × Act)) : actsOf number (a ++ b) = actsOf number a ++ actsOf number b :=
  List.filterMap_append

theorem actsOf_marked (number other : Nat) (acts : List Act) :
    actsOf number (acts.map fun a => (other, a)) = if other = number then acts else [] := by
  unfold actsOf
  split
  · rename_i h
    simp [List.filterMap_map, h]
  · rename_i h
    simp [List.filterMap_map, h]

theorem run_append (c : Context) (s : Server) (a b : List (Moment × Occurrence)) :
    (s.run c (a ++ b)).2 = (s.run c a).2 ++ ((s.run c a).1.run c b).2 := by
  induction a generalizing s with
  | nil => rfl
  | cons mo a ih =>
    obtain ⟨m, o⟩ := mo
    show (s.step c m o).2 ++ ((s.step c m o).1.run c (a ++ b)).2 = _
    rw [ih, ← List.append_assoc]
    rfl

/-- What happens to a connection is nothing, or a step of the connection. -/
theorem onConnection_cases (c : Context) (m : Moment) (s : Server) (number : Nat) (e : Happening) :
    s.onConnection c m number e = (s, []) ∨
      ∃ j k, number = j + 1 ∧ s.connections[j]? = some k ∧
        s.onConnection c m number e =
          ({ s with connections := s.connections.set j (k.step c m e).1 }, (k.step c m e).2.map fun a => (j + 1, a)) := by
  unfold onConnection
  split
  · exact .inl rfl
  · rename_i k hk
    split
    · exact .inl rfl
    · rename_i hpermits
      have hpos : number ≠ 0 := fun hzero => hpermits (.inl hzero)
      obtain ⟨j, rfl⟩ := Nat.exists_eq_succ_of_ne_zero hpos
      exact .inr ⟨j, k, rfl, hk, rfl⟩

/-- A connection does what it does when this reaches it, and nothing else. -/
theorem step_of_some (hk : s.connections[i]? = some k) (m : Moment) (o : Occurrence) :
    (s.step c m o).1.connections[i]? = some (k.run c (s.reaching (i + 1) m o)).1 ∧
      actsOf (i + 1) (s.step c m o).2 = (k.run c (s.reaching (i + 1) m o)).2 := by
  have hlt : i < s.connections.length := (List.getElem?_eq_some_iff.1 hk).1
  cases o with
  | accept peer =>
    simp only [step]
    split
    · exact ⟨hk, rfl⟩
    · exact ⟨(List.getElem?_append_left hlt).trans hk, rfl⟩
  | stop => exact ⟨hk, rfl⟩
  | on n h =>
    by_cases hn : n = i + 1
    · subst hn
      by_cases hpermits : s.permits h
      · have hreach : s.reaching (i + 1) m (.on (i + 1) h) = [(m, h)] := if_pos ⟨rfl, hlt, hpermits⟩
        have hstep : s.step c m (.on (i + 1) h) =
            ({ s with connections := s.connections.set i (k.step c m h).1 }, (k.step c m h).2.map fun a => (i + 1, a)) := by
          simp [step, onConnection, hk, hpermits]
        rw [hreach, hstep, actsOf_marked, if_pos rfl]
        refine ⟨List.getElem?_set_self hlt, ?_⟩
        exact (List.append_nil _).symm
      · have hreach : s.reaching (i + 1) m (.on (i + 1) h) = [] := if_neg fun hall => hpermits hall.2.2
        have hstep : s.step c m (.on (i + 1) h) = (s, []) := by simp [step, onConnection, hk, hpermits]
        rw [hreach, hstep]
        exact ⟨hk, rfl⟩
    · have hreach : s.reaching (i + 1) m (.on n h) = [] := if_neg fun hall => hn hall.1
      rw [hreach]
      simp only [step]
      rcases onConnection_cases c m s n h with heq | ⟨j, k', rfl, hk', heq⟩
      · rw [heq]
        exact ⟨hk, rfl⟩
      · rw [heq, actsOf_marked, if_neg hn]
        exact ⟨(List.getElem?_set_ne fun hij => hn (congrArg (· + 1) hij)).trans hk, rfl⟩

/-- A connection that is not there is done nothing on, and the next one that is accepted may be it. -/
theorem step_of_none (hi : s.connections.length ≤ i) (m : Moment) (o : Occurrence) :
    s.reaching (i + 1) m o = [] ∧ actsOf (i + 1) (s.step c m o).2 = [] ∧
      ((s.step c m o).1.connections.length ≤ i ∨ ∃ peer, (s.step c m o).1.connections[i]? = some (.fresh (i + 1) peer)) := by
  cases o with
  | accept peer =>
    refine ⟨rfl, ?_, ?_⟩
    · simp only [step]
      split <;> rfl
    · simp only [step]
      split
      · exact .inl hi
      · rcases Nat.eq_or_lt_of_le hi with rfl | hlt
        · exact .inr ⟨peer, List.getElem?_concat_length⟩
        · exact .inl (by simpa using Nat.succ_le_of_lt hlt)
  | stop => exact ⟨rfl, rfl, .inl hi⟩
  | on n h =>
    refine ⟨if_neg fun hall => absurd hall.2.1 (by omega), ?_⟩
    simp only [step]
    rcases onConnection_cases c m s n h with heq | ⟨j, k', rfl, hk', heq⟩
    · rw [heq]
      exact ⟨rfl, .inl hi⟩
    · have hlt : j < s.connections.length := (List.getElem?_eq_some_iff.1 hk').1
      rw [heq, actsOf_marked, if_neg (by omega)]
      exact ⟨rfl, .inl (by simpa using hi)⟩

theorem run_of_some (os : List (Moment × Occurrence)) {s : Server} {k : Connection} (hk : s.connections[i]? = some k) :
    (s.run c os).1.connections[i]? = some (k.run c (heard c (i + 1) s os)).1 ∧
      actsOf (i + 1) (s.run c os).2 = (k.run c (heard c (i + 1) s os)).2 := by
  induction os generalizing s k with
  | nil => exact ⟨hk, rfl⟩
  | cons mo os ih =>
    obtain ⟨m, o⟩ := mo
    obtain ⟨hnext, hacts⟩ := step_of_some (c := c) hk m o
    obtain ⟨hend, hrest⟩ := ih hnext
    rw [heard, Connection.run_append]
    refine ⟨hend, ?_⟩
    show actsOf (i + 1) ((s.step c m o).2 ++ ((s.step c m o).1.run c os).2) = _
    rw [actsOf_append, hacts, hrest]
    rfl

/-- **Each connection does what it does when this reaches it**, from the moment it is accepted. -/
theorem run_of_none (os : List (Moment × Occurrence)) {s : Server} {k : Connection} (hi : s.connections.length ≤ i)
    (hk : (s.run c os).1.connections[i]? = some k) :
    ∃ peer, (Connection.fresh (i + 1) peer).run c (heard c (i + 1) s os) = (k, actsOf (i + 1) (s.run c os).2) := by
  induction os generalizing s with
  | nil => exact absurd (List.getElem?_eq_some_iff.1 hk).1 (Nat.not_lt.2 hi)
  | cons mo os ih =>
    obtain ⟨m, o⟩ := mo
    obtain ⟨hreach, hacts, hnext⟩ := step_of_none (c := c) hi m o
    have hrun : actsOf (i + 1) (s.run c ((m, o) :: os)).2 = actsOf (i + 1) ((s.step c m o).1.run c os).2 := by
      show actsOf (i + 1) ((s.step c m o).2 ++ ((s.step c m o).1.run c os).2) = _
      rw [actsOf_append, hacts]
      rfl
    rw [heard, hreach, List.nil_append, hrun]
    -- nothing reaches the connection until it is accepted, and from then on it is there
    rcases hnext with hlater | ⟨peer, hfresh⟩
    · exact ih hlater hk
    · obtain ⟨hend, hrest⟩ := run_of_some (c := c) os hfresh
      refine ⟨peer, ?_⟩
      rw [hrest, ← Option.some.inj (hend.symm.trans hk)]

/-- A connection that is closed stays so, and nothing is done on it. -/
theorem step_of_closed (m : Moment) (hk : s.connections[i]? = some k) (h : k.phase = .closed) (o : Occurrence) :
    (∃ k', (s.step c m o).1.connections[i]? = some k' ∧ k'.phase = .closed) ∧ actsOf (i + 1) (s.step c m o).2 = [] := by
  obtain ⟨hnext, hacts⟩ := step_of_some (c := c) hk m o
  obtain ⟨hclosed, hnothing⟩ := Connection.run_of_closed (c := c) h (s.reaching (i + 1) m o)
  exact ⟨⟨_, hnext, hclosed⟩, hacts.trans hnothing⟩

theorem actsOf_run_of_closed (os : List (Moment × Occurrence)) (hk : s.connections[i]? = some k) (h : k.phase = .closed) :
    actsOf (i + 1) (s.run c os).2 = [] :=
  (run_of_some os hk).2.trans (Connection.run_of_closed h _).2

theorem actsOf_zero_run (os : List (Moment × Occurrence)) (s : Server) : actsOf 0 (s.run c os).2 = [] := by
  induction os generalizing s with
  | nil => rfl
  | cons mo os ih =>
    obtain ⟨m, o⟩ := mo
    show actsOf 0 ((s.step c m o).2 ++ ((s.step c m o).1.run c os).2) = []
    rw [actsOf_append, ih, List.append_nil]
    cases o with
    | accept peer =>
      simp only [step]
      split <;> rfl
    | stop => rfl
    | on n h =>
      simp only [step]
      rcases onConnection_cases c m s n h with heq | ⟨j, k', rfl, hk', heq⟩
      · rw [heq]
        rfl
      · rw [heq, actsOf_marked, if_neg (Nat.succ_ne_zero j)]

/-- Nothing is done on a number that is no connection's. -/
theorem actsOf_run_of_absent (os : List (Moment × Occurrence)) {s : Server}
    (h : ∀ i k, number = i + 1 → (s.run c os).1.connections[i]? ≠ some k) : actsOf number (s.run c os).2 = [] := by
  cases number with
  | zero => exact actsOf_zero_run os s
  | succ i =>
    induction os generalizing s with
    | nil => rfl
    | cons mo os ih =>
      obtain ⟨m, o⟩ := mo
      -- a connection that is there at any time is there at the end
      have hi : s.connections.length ≤ i := by
        by_contra hlt
        have hk := List.getElem?_eq_getElem (Nat.lt_of_not_le hlt)
        exact h i _ rfl (run_of_some (c := c) ((m, o) :: os) hk).1
      have hrest : actsOf (i + 1) ((s.step c m o).1.run c os).2 = [] := ih h
      show actsOf (i + 1) ((s.step c m o).2 ++ ((s.step c m o).1.run c os).2) = []
      rw [actsOf_append, hrest, (step_of_none hi m o).2.1, List.append_nil]

end Server
end Relay
end SearchTelemetry
