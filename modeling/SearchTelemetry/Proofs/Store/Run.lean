import SearchTelemetry.Proofs.Journal.Legible
import SearchTelemetry.Proofs.Store.Log
/-!
# Store.Run — a store from call to call

A store is called from many sides, but one call at a time: a run is a list of turns, each with a call and with what room
the device has left when it is made.  A call for which there is too little room gets as much of its line written as
there is room for, whatever part that is, and the line is then cut off again.  `turn_spec` says once what a turn does;
over a run, the journal grows by the lines of the accepted entries and memory keeps these (`run_spec`).  Hence a store
that is opened on the journal tells of the same reports at any time (`reopened_agrees`).
-/
namespace SearchTelemetry
namespace Store

/-! ## Turns -/

/-- A call that changes what a store keeps. -/
inductive Call where
  | searchResults (record : SearchRecord)
  | feedback (record : FeedbackRecord)
  | metrics (record : MetricsRecord)
  | allocation (now : Instant) (id : QueryId)

namespace Call

/-- The entry that a call is to have kept, if any. -/
def toKeep? : Call → Option JournalEntry
  | searchResults r => some (.searchResults r)
  | feedback r => some (.feedback r)
  | metrics r => if r.metrics.isEmpty then none else some (.metrics r)
  | allocation .. => none

/-- The identifier that a call tells was issued, if any. -/
def issued : Call → List QueryId
  | allocation _ id => [id]
  | _ => []

end Call

/-- The store after a call, and what was in the way. -/
def call (s : Store) : Call → Store × Option Fault
  | .searchResults r => s.addSearchResults r
  | .feedback r => s.addFeedback r
  | .metrics r => s.addMetrics r
  | .allocation now id => (s.recordAllocation now id, none)

/-- A call, and how many bytes the device takes when it is made; `none` for any number. -/
structure Turn where
  room : Option Nat
  call : Call

/-- The store when the device takes so many bytes. -/
def withRoom (s : Store) (room : Option Nat) : Store :=
  { s with journal := s.journal.map fun j => { j with room } }

/-- The store after a turn, and what was in the way. -/
def turn (s : Store) (t : Turn) : Store × Option Fault :=
  (s.withRoom t.room).call t.call

/-- The entries that a call adds: one at most, and none if something was in the way. -/
def added (s : Store) (c : Call) : Log :=
  if (s.call c).2.isNone then c.toKeep?.toList else []

/-- The entries that a turn adds. -/
def taken (s : Store) (t : Turn) : Log :=
  (s.withRoom t.room).added t.call

/-- The store after turns, one after the other. -/
def run : Store → List Turn → Store
  | s, [] => s
  | s, t :: ts => run (s.turn t).1 ts

/-- The entries that turns add, in order. -/
def accepted : Store → List Turn → Log
  | _, [] => []
  | s, t :: ts => s.taken t ++ accepted (s.turn t).1 ts

/-- The identifiers that turns tell were issued. -/
def issued (ts : List Turn) : List QueryId :=
  ts.flatMap (·.call.issued)

/-- The bytes of a store's journal, none where there is no journal. -/
def journalBytes (s : Store) : List UInt8 :=
  (s.journal.map (·.bytes)).getD []

/-- The reports that a store tells of an identifier, none where it knows nothing of it. -/
def reportsOn (s : Store) (id : QueryId) : List SearchRecord :=
  match s.query id with
  | .ok q => q.searchResults
  | .error _ => []

theorem reportsOn_of_keeps {s : Store} {l : Log} {ids : List QueryId} (h : s.memory.Keeps l ids) (id : QueryId) :
    s.reportsOn id = l.reportsOn id := by
  unfold reportsOn query
  cases hq : s.memory.queries.find? id with
  | some q => exact (h.record id q hq).2
  | none =>
    rw [Queries.find?_eq_none_iff, h.known, not_or] at hq
    exact (Log.reportsOn_eq_nil hq.2).symm

/-! ## What a turn does -/

/-- **What keeping an entry comes to**: it is in memory, and its line in the journal if there is one; or nothing has
changed, and something was in the way. -/
theorem commit_cases (s : Store) (e : JournalEntry) :
    ((s.commit e).2 = none ∧ (s.commit e).1.memory = s.memory.add e ∧
        (s.commit e).1.journal.map (·.bytes) = s.journal.map (·.bytes ++ e.line)) ∨
      ((s.commit e).2.isSome ∧ (s.commit e).1.memory = s.memory ∧
        (s.commit e).1.journal.map (·.bytes) = s.journal.map (·.bytes)) := by
  cases hj : s.journal with
  | none => exact .inl (by simp [commit, hj])
  | some j =>
    cases ha : (j.append e.line).2 with
    | none =>
      have hbytes := Journal.bytes_append ha
      have hc : s.commit e = (⟨s.memory.add e, some (j.append e.line).1⟩, none) := by
        simp only [commit, hj]
        rw [← Prod.eta (j.append e.line), ha]
      exact .inl (by simp [hc, hbytes])
    | some fault =>
      have hbytes := Journal.bytes_append_of_fault ha
      have hc : s.commit e = ({ s with journal := some (j.append e.line).1 }, some fault) := by
        simp only [commit, hj]
        rw [← Prod.eta (j.append e.line), ha]
      exact .inr (by simp [hc, hbytes])

/-- A store keeps this log, these identifiers were issued, and its journal, if it has one, has these bytes. -/
structure Holds (s : Store) (l : Log) (ids : List QueryId) (bytes : Option (List UInt8)) : Prop where
  memory : s.memory.Keeps l ids
  journal : s.journal.map (·.bytes) = bytes

variable {s : Store} {l : Log} {ids : List QueryId} {bytes : Option (List UInt8)}

theorem Holds.withRoom (h : s.Holds l ids bytes) (room : Option Nat) : (s.withRoom room).Holds l ids bytes := by
  refine ⟨h.memory, ?_⟩
  rw [← h.journal, Store.withRoom, Option.map_map]
  rfl

theorem Holds.commit (h : s.Holds l ids bytes) (e : JournalEntry) :
    (s.commit e).1.Holds (l ++ if (s.commit e).2.isNone then [e] else []) ids
      (bytes.map (· ++ (if (s.commit e).2.isNone then [e] else []).flatMap JournalEntry.line)) := by
  rcases commit_cases s e with ⟨hf, hm, hj⟩ | ⟨hf, hm, hj⟩
  · refine ⟨?_, ?_⟩
    · rw [hm, hf]
      exact h.memory.add e
    · rw [hj, hf, ← h.journal, Option.map_map]
      simp [Function.comp_def]
  · have hn : (s.commit e).2.isNone = false := by simp [← Option.not_isSome, hf]
    refine ⟨?_, ?_⟩
    · rw [hm, hn]
      simpa using h.memory
    · rw [hj, hn, ← h.journal, Option.map_map]
      simp [Function.comp_def]

theorem Holds.recordAllocation (h : s.Holds l ids bytes) (now : Instant) (id : QueryId) :
    (s.recordAllocation now id).Holds l (ids ++ [id]) bytes :=
  ⟨h.memory.allocate now id, h.journal⟩

/-- **What a call does**: the log grows by what it adds, the journal by the lines of that. -/
theorem Holds.call (h : s.Holds l ids bytes) : ∀ c : Call,
    (s.call c).1.Holds (l ++ s.added c) (ids ++ c.issued) (bytes.map (· ++ (s.added c).flatMap JournalEntry.line))
  | .searchResults r => by
    simpa [added, Store.call, Call.toKeep?, Call.issued, addSearchResults] using h.commit _
  | .feedback r => by
    simpa [added, Store.call, Call.toKeep?, Call.issued, addFeedback] using h.commit _
  | .metrics r => by
    by_cases hm : r.metrics.isEmpty
    · simpa [added, Store.call, Call.toKeep?, Call.issued, addMetrics, hm] using h
    · simpa [added, Store.call, Call.toKeep?, Call.issued, addMetrics, hm] using h.commit _
  | .allocation now id => by
    simpa [added, Store.call, Call.toKeep?, Call.issued] using h.recordAllocation now id

/-- What a turn does, whatever room there is. -/
theorem turn_spec (h : s.Holds l ids bytes) (t : Turn) :
    (s.turn t).1.Holds (l ++ s.taken t) (ids ++ t.call.issued)
      (bytes.map (· ++ (s.taken t).flatMap JournalEntry.line)) :=
  (h.withRoom t.room).call t.call

/-- **What a run does**: the log grows by the accepted entries, the journal by their lines. -/
theorem run_spec : ∀ (ts : List Turn) {s : Store} {l : Log} {ids : List QueryId} {bytes : Option (List UInt8)},
    s.Holds l ids bytes →
      (s.run ts).Holds (l ++ s.accepted ts) (ids ++ issued ts)
        (bytes.map (· ++ (s.accepted ts).flatMap JournalEntry.line))
  | [], s, l, ids, bytes, h => by
    cases bytes <;> simpa [run, accepted, issued] using h
  | t :: ts, s, l, ids, bytes, h => by
    have hrun := run_spec ts (turn_spec h t)
    simpa [run, accepted, issued, Function.comp_def] using hrun

/-- What turns add they were to have kept. -/
theorem exists_of_mem_accepted : ∀ {ts : List Turn} {s : Store} {e : JournalEntry}, e ∈ s.accepted ts →
    ∃ t ∈ ts, t.call.toKeep? = some e
  | t :: ts, s, e, h => by
    rcases List.mem_append.1 h with h | h
    · unfold taken added at h
      split at h
      · exact ⟨t, by simp, by simpa using h⟩
      · cases h
    · obtain ⟨t', ht', he⟩ := exists_of_mem_accepted h
      exact ⟨t', List.mem_cons_of_mem t ht', he⟩

/-! ## A store and its journal -/

theorem holds_ofJournal (bs : List UInt8) :
    (ofJournal bs).Holds (Journal.entries bs) [] (some (Journal.mended bs)) :=
  ⟨Memory.keeps_ofEntries _, rfl⟩

/-- The journal after a run: what was there, its last line ended, and the lines of the accepted entries. -/
theorem journalBytes_run (bs : List UInt8) (ts : List Turn) :
    ((ofJournal bs).run ts).journalBytes =
      Journal.mended bs ++ ((ofJournal bs).accepted ts).flatMap JournalEntry.line := by
  simp [journalBytes, (run_spec ts (holds_ofJournal bs)).journal]

/-- The journal after a run tells what it told before, and then the accepted entries. -/
theorem entries_run {bs : List UInt8} {ts : List Turn} (h : ∀ e ∈ (ofJournal bs).accepted ts, e.Legible) :
    Journal.entries ((ofJournal bs).run ts).journalBytes = Journal.entries bs ++ (ofJournal bs).accepted ts := by
  rw [journalBytes_run, Journal.entries_append_lines (Journal.isTorn_mended bs) h, Journal.entries_mended]

/-- **Memory and journal agree at any time.**  Whatever bytes a store was opened on and whatever was called since, with
whatever room on the device, a store that is opened on the journal as it now is tells the same feedback, the same metrics
and of each identifier the same reports, all in the same order. -/
theorem reopened_agrees (name : String) (bs : List UInt8) (ts : List Turn)
    (h : ∀ e ∈ (ofJournal bs).accepted ts, e.Legible) :
    ∃ s s', open? name (.journal bs) = .ok s ∧ open? name (.journal (s.run ts).journalBytes) = .ok s' ∧
      s'.memory.feedback = (s.run ts).memory.feedback ∧ s'.memory.metrics = (s.run ts).memory.metrics ∧
      ∀ id, s'.reportsOn id = (s.run ts).reportsOn id := by
  refine ⟨ofJournal bs, ofJournal ((ofJournal bs).run ts).journalBytes, rfl, rfl, ?_⟩
  have hrun := (run_spec ts (holds_ofJournal bs)).memory
  have hopen := (holds_ofJournal ((ofJournal bs).run ts).journalBytes).memory
  rw [entries_run h] at hopen
  refine ⟨by rw [hopen.feedback, hrun.feedback], by rw [hopen.metrics, hrun.metrics], fun id => ?_⟩
  rw [reportsOn_of_keeps hopen, reportsOn_of_keeps hrun]

theorem reopened_agrees_torn :
    let f : FeedbackRecord := ⟨"a", "", "b", ⟨0, 0⟩⟩
    let ts : List Turn := [⟨some 3, .feedback f⟩, ⟨none, .feedback f⟩, ⟨none, .allocation ⟨0, 0⟩ 1⟩]
    ((ofJournal [0x78]).accepted ts).length = 1 ∧ (∀ e ∈ (ofJournal [0x78]).accepted ts, e.Legible) ∧
      ∃ s s', open? "data" (.journal [0x78]) = .ok s ∧ open? "data" (.journal (s.run ts).journalBytes) = .ok s' ∧
        s'.memory.feedback = (s.run ts).memory.feedback ∧ s'.memory.metrics = (s.run ts).memory.metrics ∧
        ∀ id, s'.reportsOn id = (s.run ts).reportsOn id := by
  intro f ts
  have hlegible : ∀ e ∈ (ofJournal [0x78]).accepted ts, e.Legible := fun e he => by
    obtain ⟨t, ht, hentry⟩ := exists_of_mem_accepted he
    have hts : ∀ t ∈ ts, t.call.toKeep? = some e → .feedback f = e := by simp [ts, Call.toKeep?]
    obtain rfl := hts t ht hentry
    exact JournalEntry.legible_of_valid ⟨by decide +kernel, by decide⟩ (by decide)
  exact ⟨by decide +kernel, hlegible, reopened_agrees "data" [0x78] ts hlegible⟩

end Store
end SearchTelemetry
