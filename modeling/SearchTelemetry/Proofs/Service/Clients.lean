import SearchTelemetry.Proofs.Report
import SearchTelemetry.Proofs.Store.Observers
import SearchTelemetry.Proofs.Store.Run
import SearchTelemetry.Service
/-!
# Service.Clients — a service that many clients use at once

Every command goes to the store once, while no other command does, and so commands of many clients run as if one were
carried out after the other.  Only a call for an identifier has two parts, the store's and the counter's: the identifier is
recorded in the store, and other commands may run before it is issued, though none that asks for an identifier, as the
counter is held meanwhile.  `step` takes any of these parts, at any time and with any room on the journal's device.
`step_spec` says once what a step does to the store, `run_spec` what a run does, and `observed` what the store then tells.
-/
namespace SearchTelemetry

/-! ## Commands -/

/-- The call of the store that a command comes to when it is carried out at an instant, if it is a report that is as it
should be. -/
def Command.call? (now : Instant) : Command → Option Store.Call
  | .reportSearchResults report => (report.validate now).toOption.map .searchResults
  | .submitFeedback report => (report.validate now).toOption.map .feedback
  | .reportMetrics component report => (report.validate now component).toOption.map .metrics
  | _ => none

/-- The entry that a command is to have kept when it is carried out at an instant, if any. -/
def Command.toKeep? (now : Instant) (c : Command) : Option JournalEntry :=
  (c.call? now).bind (·.toKeep?)

theorem Command.eq_getQueryId : ∀ c : Command, c.endpoint = .getQueryId → c = .getQueryId
  | .getQueryId, _ => rfl

namespace Service

/-- The entries that a command adds when it is carried out at an instant: one at most, and none if it fails. -/
def taken (now : Instant) (s : Service) (c : Command) : Log :=
  if (s.execute now c).2.isOk then (c.toKeep? now).toList else []

theorem store_kept (s : Service) (r : Store × Option Fault) : (s.kept r).1.store = r.1 :=
  rfl

theorem isOk_kept (s : Service) (r : Store × Option Fault) : (s.kept r).2.isOk = r.2.isNone := by
  unfold kept
  cases r.2 <;> rfl

/-- A report that is as it should be goes to the store. -/
theorem execute_of_call? {now : Instant} {c : Command} {call : Store.Call} (h : c.call? now = some call) (s : Service) :
    s.execute now c = s.kept (s.store.call call) := by
  cases c with
  | getAutofill partialQuery count => cases h
  | getQueryId => cases h
  | getQueryData id => cases h
  | reportSearchResults report =>
    obtain ⟨record, hv, rfl⟩ := Option.map_eq_some_iff.1 h
    simp only [execute, ok_of_toOption hv]
    rfl
  | submitFeedback report =>
    obtain ⟨record, hv, rfl⟩ := Option.map_eq_some_iff.1 h
    simp only [execute, ok_of_toOption hv]
    rfl
  | reportMetrics component report =>
    obtain ⟨record, hv, rfl⟩ := Option.map_eq_some_iff.1 h
    simp only [execute, ok_of_toOption hv]
    rfl

/-- Whatever else is asked leaves all as it is, but for an identifier. -/
theorem execute_of_no_call {now : Instant} {c : Command} (h : c.call? now = none) (hc : c.endpoint ≠ .getQueryId)
    (s : Service) : (s.execute now c).1 = s := by
  cases c with
  | getAutofill partialQuery count =>
    simp only [execute]
    split <;> rfl
  | getQueryId => exact absurd rfl hc
  | getQueryData id => rfl
  | reportSearchResults report =>
    obtain ⟨fault, hv⟩ := error_of_toOption (Option.map_eq_none_iff.1 h)
    simp only [execute, hv]
  | submitFeedback report =>
    obtain ⟨fault, hv⟩ := error_of_toOption (Option.map_eq_none_iff.1 h)
    simp only [execute, hv]
  | reportMetrics component report =>
    obtain ⟨fault, hv⟩ := error_of_toOption (Option.map_eq_none_iff.1 h)
    simp only [execute, hv]

theorem issued_of_call? {now : Instant} {c : Command} {call : Store.Call} (h : c.call? now = some call) :
    call.issued = [] := by
  cases c with
  | getAutofill partialQuery count => cases h
  | getQueryId => cases h
  | getQueryData id => cases h
  | reportSearchResults report =>
    obtain ⟨record, -, rfl⟩ := Option.map_eq_some_iff.1 h
    rfl
  | submitFeedback report =>
    obtain ⟨record, -, rfl⟩ := Option.map_eq_some_iff.1 h
    rfl
  | reportMetrics component report =>
    obtain ⟨record, -, rfl⟩ := Option.map_eq_some_iff.1 h
    rfl

variable {s : Service} {l : Log} {ids : List QueryId} {bytes : Option (List UInt8)}

/-- **What a command does to the store** that asks for no identifier: the log grows by what it adds. -/
theorem execute_spec (h : s.store.Holds l ids bytes) (now : Instant) {c : Command} (hc : c.endpoint ≠ .getQueryId) :
    (s.execute now c).1.store.Holds (l ++ s.taken now c) ids
      (bytes.map (· ++ (s.taken now c).flatMap JournalEntry.line)) := by
  unfold taken Command.toKeep?
  cases hcall : c.call? now with
  | none =>
    rw [execute_of_no_call hcall hc]
    simpa using h
  | some call =>
    have hstore := h.call call
    rw [issued_of_call? hcall, List.append_nil] at hstore
    rw [execute_of_call? hcall, store_kept, isOk_kept]
    exact hstore

end Service

/-- A call whose recording cannot fail either issues the counter's next identifier and moves the counter on, or changes
nothing. -/
theorem Allocator.allocateWith_recorded {σ : Type} (a : Allocator) (f : QueryId → σ) :
    (a.allocateWith fun id => .recorded (f id)) = ({ a with next := a.next + 1 }, .issued a.next (f a.next)) ∨
      ∃ fault, (a.allocateWith fun id => .recorded (f id)) = (a, .refused fault) := by
  unfold allocateWith
  by_cases hb : a.broken
  · exact .inr ⟨brokenFault, by simp [hb]⟩
  · by_cases hm : a.next = Int64.maxValue
    · exact .inr ⟨exhaustedFault, by simp [hb, hm]⟩
    · exact .inl (by simp [hb, hm])

namespace Service

/-- **What a call for an identifier comes to**: the counter's next identifier is recorded and issued and the counter moves
on, or nothing has changed. -/
theorem execute_getQueryId (now : Instant) (s : Service) :
    (s.execute now .getQueryId =
        ({ s with
            allocator := { s.allocator with next := s.allocator.next + 1 }
            store := s.store.recordAllocation now s.allocator.next },
          .ok (.ofValue (.object [("query_ID", .int s.allocator.next.toInt)])))) ∨
      ∃ fault, s.execute now .getQueryId = (s, .error fault) := by
  unfold execute
  rcases s.allocator.allocateWith_recorded (s.store.recordAllocation now) with h | ⟨fault, h⟩
  · exact .inl (by simp only [h])
  · exact .inr ⟨fault, by simp only [h]⟩

theorem taken_getQueryId (now : Instant) (s : Service) : s.taken now .getQueryId = [] :=
  ite_self _

/-- The identifier that a command is answered with, if it asks for one and gets one. -/
def issued (now : Instant) (s : Service) (c : Command) : List QueryId :=
  if c.endpoint = .getQueryId ∧ (s.execute now c).2.isOk then [s.allocator.next] else []

end Service

/-! ## Many clients -/

/-- A service that clients use at once. -/
structure Shared where
  service : Service
  /-- The identifier that a client who holds the counter has recorded and is about to be given. -/
  issuing : Option QueryId

namespace Shared

/-- What can happen next. -/
inductive Step where
  /-- A command is carried out as a whole, at an instant. -/
  | command (now : Instant) (c : Command)
  /-- A client gets hold of the counter and has its next identifier recorded. -/
  | record (now : Instant)
  /-- The identifier that was recorded is issued, and the counter let go. -/
  | issue
  /-- The device of the journal takes so many bytes from now on; `none` for any number. -/
  | room (bytes : Option Nat)

/-- A command that asks for an identifier waits while the counter is held. -/
def waits (s : Shared) (c : Command) : Prop :=
  c.endpoint = .getQueryId ∧ s.issuing.isSome

instance (s : Shared) (c : Command) : Decidable (s.waits c) :=
  inferInstanceAs (Decidable (_ ∧ _))

/-- An identifier is recorded, if the counter is not held and has one left. -/
def record (now : Instant) (s : Shared) : Shared :=
  match s.issuing, s.service.allocator.allocateWith fun id => .recorded (s.service.store.recordAllocation now id) with
  | none, (_, .issued id store) => ⟨{ s.service with store }, some id⟩
  | _, _ => s

/-- The identifier that was recorded is issued. -/
def issue (s : Shared) : Shared :=
  match s.issuing with
  | some id => ⟨{ s.service with allocator := { s.service.allocator with next := id + 1 } }, none⟩
  | none => s

/-- The service after a step. -/
def step (s : Shared) : Step → Shared
  | .command now c => if s.waits c then s else { s with service := (s.service.execute now c).1 }
  | .record now => s.record now
  | .issue => s.issue
  | .room bytes => { s with service := { s.service with store := s.service.store.withRoom bytes } }

/-- The entries that a step adds. -/
def taken (s : Shared) : Step → Log
  | .command now c => s.service.taken now c
  | _ => []

/-- The identifiers that a step issues. -/
def issued (s : Shared) : Step → List QueryId
  | .command now c => if s.waits c then [] else s.service.issued now c
  | .issue => s.issuing.toList
  | _ => []

/-- The service after steps, one after the other. -/
def run : Shared → List Step → Shared
  | s, [] => s
  | s, t :: ts => run (s.step t) ts

/-- The entries that steps add, in order. -/
def accepted : Shared → List Step → Log
  | _, [] => []
  | s, t :: ts => s.taken t ++ accepted (s.step t) ts

/-- The identifiers that steps issue, in order. -/
def returned : Shared → List Step → List QueryId
  | _, [] => []
  | s, t :: ts => s.issued t ++ returned (s.step t) ts

/-- What recording an identifier comes to. -/
theorem record_cases (now : Instant) (s : Shared) :
    (s.issuing = none ∧
        s.record now = ⟨{ s.service with store := s.service.store.recordAllocation now s.service.allocator.next },
          some s.service.allocator.next⟩ ∧
        s.service.execute now .getQueryId =
          ({ s.service with
              allocator := { s.service.allocator with next := s.service.allocator.next + 1 }
              store := s.service.store.recordAllocation now s.service.allocator.next },
            .ok (.ofValue (.object [("query_ID", .int s.service.allocator.next.toInt)])))) ∨
      s.record now = s ∧ (s.issuing = none → (s.service.execute now .getQueryId).1 = s.service) := by
  unfold record Service.execute
  cases hi : s.issuing with
  | some id => exact .inr ⟨rfl, nofun⟩
  | none =>
    rcases s.service.allocator.allocateWith_recorded (s.service.store.recordAllocation now) with h | ⟨fault, h⟩
    · exact .inl ⟨rfl, by simp only [h], by simp only [h]⟩
    · exact .inr ⟨by simp only [h], fun _ => by simp only [h]⟩

/-- **Recording and then issuing an identifier is what the command does as a whole.** -/
theorem issue_record {s : Shared} (h : s.issuing = none) (now : Instant) :
    (s.record now).issue = { s with service := (s.service.execute now .getQueryId).1 } := by
  rcases record_cases now s with ⟨-, hr, he⟩ | ⟨hr, he⟩
  · rw [hr, he, issue, h]
  · obtain ⟨service, issuing⟩ := s
    subst h
    rw [hr, he rfl]
    rfl

variable {s : Shared} {l : Log} {ids : List QueryId} {bytes : Option (List UInt8)}

/-- **What a step does**: the log grows by what it adds, and just the identifiers are recorded that are issued or about to
be. -/
theorem step_spec (h : s.service.store.Holds l (ids ++ s.issuing.toList) bytes) (t : Step) :
    (s.step t).service.store.Holds (l ++ s.taken t) (ids ++ s.issued t ++ (s.step t).issuing.toList)
      (bytes.map (· ++ (s.taken t).flatMap JournalEntry.line)) := by
  have hbytes : bytes.map (· ++ [].flatMap JournalEntry.line) = bytes := by simp
  cases t with
  | command now c =>
    by_cases hc : c.endpoint = .getQueryId
    · obtain rfl := c.eq_getQueryId hc
      have ht : s.taken (.command now .getQueryId) = [] := s.service.taken_getQueryId now
      by_cases hw : s.waits .getQueryId
      · simpa [step, ht, issued, hw] using h
      · have hi : s.issuing = none := by simpa [waits, hc] using hw
        rcases s.service.execute_getQueryId now with he | ⟨fault, he⟩
        · have hissued : s.service.issued now .getQueryId = [s.service.allocator.next] := by
            simp [Service.issued, hc, he, Except.isOk, Except.toBool]
          simpa [step, ht, issued, hw, hissued, he, hi] using h.recordAllocation now s.service.allocator.next
        · have hissued : s.service.issued now .getQueryId = [] := by
            simp [Service.issued, he, Except.isOk, Except.toBool]
          simpa [step, ht, issued, hw, hissued, he] using h
    · have hw : ¬ s.waits c := fun hw => hc hw.1
      simpa [step, taken, issued, hw, Service.issued, hc] using Service.execute_spec h now hc
  | record now =>
    rcases record_cases now s with ⟨hi, hr, -⟩ | ⟨hr, -⟩
    · simpa [step, taken, issued, hr, hi] using h.recordAllocation now s.service.allocator.next
    · simpa [step, taken, issued, hr] using h
  | issue =>
    cases hi : s.issuing with
    | some id => simpa [step, taken, issued, issue, hi] using h
    | none => simpa [step, taken, issued, issue, hi] using h
  | room n => simpa [step, taken, issued] using h.withRoom n

/-- **What a run does**: the log grows by the entries that were accepted, and just the identifiers are recorded that were
returned or are about to be. -/
theorem run_spec : ∀ (ts : List Step) {s : Shared} {l : Log} {ids : List QueryId} {bytes : Option (List UInt8)},
    s.service.store.Holds l (ids ++ s.issuing.toList) bytes →
      (s.run ts).service.store.Holds (l ++ s.accepted ts) (ids ++ s.returned ts ++ (s.run ts).issuing.toList)
        (bytes.map (· ++ (s.accepted ts).flatMap JournalEntry.line))
  | [], s, l, ids, bytes, h => by
    cases bytes <;> simpa [run, accepted, returned] using h
  | t :: ts, s, l, ids, bytes, h => by
    have hrun := run_spec ts (step_spec h t)
    simpa [run, accepted, returned, Function.comp_def] using hrun

/-- A service that starts on a journal of these bytes, or without a journal. -/
def start (journal : Option (List UInt8)) (firstQueryId : QueryId) (maxSuggestions : Nat) : Shared :=
  ⟨.ofStore (journal.elim .inMemory .ofJournal) firstQueryId maxSuggestions, none⟩

theorem holds_start (journal : Option (List UInt8)) (firstQueryId : QueryId) (maxSuggestions : Nat) :
    (start journal firstQueryId maxSuggestions).service.store.Holds (journal.elim [] Journal.entries) []
      (journal.map Journal.mended) :=
  match journal with
  | none => ⟨Memory.keeps_empty, rfl⟩
  | some bs => Store.holds_ofJournal bs

/-- **All that a store tells is told by its log.**  Whatever clients ask for and however it interleaves, let `l` be what the
journal told at the start and the reports that were accepted since, and `ids` the identifiers that were returned, with the
one that is about to be.  An identifier is unknown just if neither `ids` has it nor a report in `l` names it; if it is known,
it is told to be issued just if `ids` has it, with the reports on it in `l`.  Feedback and metrics are those in `l`, and what is
counted is counted in `l` and `ids`. -/
theorem observed (journal : Option (List UInt8)) (firstQueryId : QueryId) (maxSuggestions : Nat) (ts : List Step) :
    let s := start journal firstQueryId maxSuggestions
    let store := (s.run ts).service.store
    let l : Log := journal.elim [] Journal.entries ++ s.accepted ts
    let ids := s.returned ts ++ (s.run ts).issuing.toList
    (∀ id, (∃ message, store.query id = .error (.notFound message)) ↔ id ∉ ids ∧ id ∉ l.ids) ∧
    (∀ id fault, store.query id = .error fault → ∃ message, fault = .notFound message) ∧
    (∀ id q, store.query id = .ok q →
      q.queryId = id ∧ (q.allocatedAt.isSome ↔ id ∈ ids) ∧ q.searchResults = l.reportsOn id) ∧
    store.memory.feedback = l.feedback ∧ store.memory.metrics = l.metrics ∧
    store.summary = ⟨(ids ++ l.ids).toFinset.card, l.searches.length, l.feedback.length, l.metrics.length⟩ ∧
    ∀ q, store.rawQueryCounts.lookup q =
      if q = "" ∨ l.searches.countP (·.rawQuery = q) = 0 then none else some (l.searches.countP (·.rawQuery = q)) := by
  intro s store l ids
  have hstart : s.service.store.Holds (journal.elim [] Journal.entries) ([] ++ s.issuing.toList)
      (journal.map Journal.mended) := holds_start journal firstQueryId maxSuggestions
  have h : store.memory.Keeps l ids := (run_spec ts hstart).memory
  exact ⟨Store.query_eq_notFound_iff h, fun id fault => Store.exists_of_query_eq_error,
    fun id q => Store.query_eq_ok h, h.feedback, h.metrics, Store.summary_eq h, Store.lookup_rawQueryCounts h⟩

end Shared
end SearchTelemetry
