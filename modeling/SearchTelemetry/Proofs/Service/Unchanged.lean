import SearchTelemetry.Proofs.Service.Acknowledged
/-!
# Service.Unchanged — the requests that leave a service as it was

A request that fails leaves no trace, wherever it fails: the counter, the memory and the journal are as they were, a line
that was written in part among them.  A request that only asks leaves none either.  Every other request changes something,
so that these are just the requests that change nothing (`handle_eq_self_iff`).
-/
namespace SearchTelemetry

/-! ## The store -/

/-- A line that is not added leaves the journal as it was, and the device with the room that it had. -/
theorem Journal.append_of_fault {j : Journal} {line : List UInt8} {fault : Fault} (h : (j.append line).2 = some fault) :
    (j.append line).1 = j := by
  have hbytes := bytes_append_of_fault h
  obtain ⟨bytes, room⟩ := j
  unfold append at h hbytes ⊢
  split
  · rename_i ht
    rw [if_pos ht] at h
    cases h
  · rename_i ht
    rw [if_neg ht] at hbytes
    cases room with
    | none => exact absurd rfl ht
    | some n =>
      have hn : n < line.length := by simpa [takes] using ht
      have hroom : n - line.length + ((bytes ++ line.take n).length - bytes.length) = n := by
        rw [List.length_append, List.length_take]
        omega
      simp only [write, truncate, Option.map_some, hroom] at hbytes ⊢
      rw [hbytes]

namespace Memory

/-- Memory that keeps one more entry is not the same. -/
theorem add_ne_self (m : Memory) : ∀ e : JournalEntry, m.add e ≠ m
  | .searchResults r, h => by
    have hperm : ((m.queries.update r.queryId (.addReport r)).flatMap (·.searchResults)).Perm
        (m.queries.flatMap (·.searchResults) ++ [r]) := Queries.perm_flatMap_addReport r m.queries
    have hqueries : m.queries.update r.queryId (.addReport r) = m.queries := congrArg Memory.queries h
    rw [hqueries] at hperm
    simpa using hperm.length_eq
  | .feedback r, h => by simpa [add] using congrArg (fun m => m.feedback.length) h
  | .metrics r, h => by simpa [add] using congrArg (fun m => m.metrics.length) h

end Memory

namespace Store

/-- **An entry that is not kept leaves the store as it was**, and one that is kept does not. -/
theorem commit_eq_self_iff (s : Store) (e : JournalEntry) : (s.commit e).1 = s ↔ (s.commit e).2.isSome := by
  rcases s.commit_cases e with ⟨hn, hm, -⟩ | ⟨hf, -, -⟩
  · rw [hn]
    refine ⟨fun h => ?_, nofun⟩
    rw [h] at hm
    exact absurd hm.symm (s.memory.add_ne_self e)
  · refine ⟨fun _ => hf, fun _ => ?_⟩
    obtain ⟨memory, journal⟩ := s
    cases journal with
    | none => cases hf
    | some j =>
      simp only [commit] at hf ⊢
      split at hf
      · cases hf
      · rename_i j' fault ha
        have hj := Journal.append_of_fault (congrArg Prod.snd ha)
        rw [ha] at hj
        rw [← hj]

end Store

/-! ## Commands -/

namespace Command

/-- A command that asks and tells nothing: for suggestions, for what is known of a query, or with no metrics to report. -/
def AsksOnly : Command → Prop
  | getAutofill .. | getQueryData _ => True
  | reportMetrics _ report => report.entries = []
  | getQueryId | reportSearchResults _ | submitFeedback _ => False

/-- A report that is as it should be is one to keep, unless there are no metrics in it; then the store has nothing to do. -/
theorem toKeep?_of_call? {now : Instant} {c : Command} {call : Store.Call} (h : c.call? now = some call) :
    (c.AsksOnly ∧ ∀ s : Store, s.call call = (s, none)) ∨ (¬ c.AsksOnly ∧ ∃ e, call.toKeep? = some e) := by
  cases c with
  | getAutofill partialQuery count => cases h
  | getQueryId => cases h
  | getQueryData id => cases h
  | reportSearchResults report =>
    obtain ⟨record, -, rfl⟩ := Option.map_eq_some_iff.1 h
    exact .inr ⟨id, _, rfl⟩
  | submitFeedback report =>
    obtain ⟨record, -, rfl⟩ := Option.map_eq_some_iff.1 h
    exact .inr ⟨id, _, rfl⟩
  | reportMetrics component report =>
    obtain ⟨record, hv, rfl⟩ := Option.map_eq_some_iff.1 h
    obtain ⟨-, hentries⟩ := MetricsReport.of_validate (ok_of_toOption hv)
    have hnil : report.entries = [] ↔ record.metrics = [] := by rw [← hentries, List.map_eq_nil_iff]
    by_cases hm : record.metrics = []
    · exact .inl ⟨hnil.2 hm, fun s => by simp [Store.call, Store.addMetrics, hm]⟩
    · exact .inr ⟨fun hc => hm (hnil.1 hc), .metrics record, by simp [Store.Call.toKeep?, hm]⟩

theorem endpoint_of_decode {e : Endpoint} {method : String} {headers : Headers} {body : List UInt8} {c : Command}
    (h : decode e method headers body = .ok c) : c.endpoint = e := by
  unfold decode at h
  split at h
  · cases h
  cases e with
  | getQueryId =>
    obtain rfl := Except.ok.inj h
    rfl
  | getAutofill | getQueryData =>
    dsimp only at h
    split at h
    · cases h
    · obtain ⟨_, -, rfl⟩ := exists_of_map_eq_ok h
      rfl
  | reportSearchResults | submitFeedback | reportMetrics =>
    obtain ⟨_, -, rfl⟩ := exists_of_map_eq_ok h
    rfl

end Command

theorem Endpoint.name_of_ofName? {name : String} {e : Endpoint} (h : ofName? name = some e) : e.name = name := by
  simpa using List.find?_some h

namespace Service

/-- What a call of the store comes to that keeps an entry. -/
theorem kept_commit_cases (s : Service) (e : JournalEntry) :
    (∃ fault, s.kept (s.store.commit e) = (s, .error fault)) ∨
      (s.kept (s.store.commit e)).2 = .ok .acknowledged ∧ (s.kept (s.store.commit e)).1 ≠ s := by
  cases hf : (s.store.commit e).2 with
  | some fault =>
    have hs : (s.store.commit e).1 = s.store := (s.store.commit_eq_self_iff e).2 (by rw [hf]; rfl)
    exact .inl ⟨fault, by simp only [kept, hf, hs]⟩
  | none =>
    refine .inr ⟨by simp only [kept, hf], fun h => ?_⟩
    have hs : (s.store.commit e).2.isSome := (s.store.commit_eq_self_iff e).1 (congrArg Service.store h)
    rw [hf] at hs
    cases hs

/-- **What a command comes to**: it fails and changes nothing, or it is answered with success, and then it changes something
unless it only asks. -/
theorem execute_cases (now : Instant) (s : Service) (c : Command) :
    (∃ fault, s.execute now c = (s, .error fault)) ∨
      ∃ a, a.status = 200 ∧ (s.execute now c).2 = .ok a ∧ ((s.execute now c).1 = s ↔ c.AsksOnly) := by
  cases hcall : c.call? now with
  | some call =>
    rw [execute_of_call? hcall]
    rcases Command.toKeep?_of_call? hcall with ⟨hc, hk⟩ | ⟨hc, e, hk⟩
    · rw [hk]
      exact .inr ⟨.acknowledged, rfl, rfl, iff_of_true rfl hc⟩
    · rw [s.store.call_of_toKeep? hk]
      rcases s.kept_commit_cases e with h | ⟨ha, hs⟩
      · exact .inl h
      · exact .inr ⟨.acknowledged, rfl, ha, iff_of_false hs hc⟩
  | none =>
    cases c with
    | getAutofill partialQuery count =>
      by_cases hcount : 0 ≤ count.toInt ∧ count.toInt.toNat ≤ s.maxSuggestions
      · simp only [execute, if_pos hcount]
        exact .inr ⟨_, rfl, rfl, iff_of_true trivial trivial⟩
      · exact .inl ⟨_, by simp only [execute, if_neg hcount]; rfl⟩
    | getQueryId =>
      rcases s.execute_getQueryId now with h | h
      · -- the counter moves on, and one more is never the same
        have hnext : s.allocator.next + 1 ≠ s.allocator.next := by grind
        rw [h]
        exact .inr ⟨_, rfl, rfl, iff_of_false (fun hs => hnext (congrArg (·.allocator.next) hs)) id⟩
      · exact .inl h
    | getQueryData id =>
      cases hq : s.store.query id with
      | ok q => exact .inr ⟨_, rfl, by simp only [execute, hq]; rfl, iff_of_true rfl trivial⟩
      | error fault => exact .inl ⟨fault, by simp only [execute, hq]; rfl⟩
    | reportSearchResults report =>
      obtain ⟨fault, hv⟩ := error_of_toOption (Option.map_eq_none_iff.1 hcall)
      exact .inl ⟨fault, by simp only [execute, hv]⟩
    | submitFeedback report =>
      obtain ⟨fault, hv⟩ := error_of_toOption (Option.map_eq_none_iff.1 hcall)
      exact .inl ⟨fault, by simp only [execute, hv]⟩
    | reportMetrics component report =>
      obtain ⟨fault, hv⟩ := error_of_toOption (Option.map_eq_none_iff.1 hcall)
      exact .inl ⟨fault, by simp only [execute, hv]⟩

end Service

/-! ## Requests -/

/-- A request that asks and tells nothing, by its endpoint: for suggestions, for what is known of a query, or with no metrics
in the report. -/
def Incoming.AsksOnly (r : Incoming) : Prop :=
  ∃ e : Endpoint, Route.ofTarget r.target = .endpoint e.name ∧
    match e with
    | .getAutofill | .getQueryData => True
    | .reportMetrics => ∃ report, MetricsReport.read? r.body = some report ∧ report.entries = []
    | .getQueryId | .reportSearchResults | .submitFeedback => False

theorem Incoming.asksOnly_iff {r : Incoming} {c : Command} (h : r.command? = some c) : r.AsksOnly ↔ c.AsksOnly := by
  unfold command? at h
  unfold AsksOnly
  split at h
  · rename_i name hroute
    split at h
    · cases h
    obtain ⟨e, he, hc⟩ := Option.bind_eq_some_iff.1 h
    have hdecode := ok_of_toOption hc
    obtain rfl := Endpoint.name_of_ofName? he
    obtain rfl := Command.endpoint_of_decode hdecode
    have hname : ∀ e : Endpoint, Route.endpoint c.endpoint.name = .endpoint e.name → e = c.endpoint := fun e heq => by
      have hname := Endpoint.ofName?_name e
      rw [← Route.endpoint.inj heq, Endpoint.ofName?_name] at hname
      exact (Option.some.inj hname).symm
    rw [hroute]
    constructor
    · rintro ⟨e, heq, hasks⟩
      obtain rfl := hname e heq
      cases c with
      | getAutofill partialQuery count => trivial
      | getQueryData id => trivial
      | reportMetrics component report =>
        obtain ⟨report', hread, hentries⟩ := hasks
        rw [Command.read?_of_decode hdecode] at hread
        obtain rfl := Option.some.inj hread
        exact hentries
      | getQueryId => exact hasks
      | reportSearchResults report => exact hasks
      | submitFeedback report => exact hasks
    · intro hasks
      refine ⟨c.endpoint, rfl, ?_⟩
      cases c with
      | getAutofill partialQuery count => trivial
      | getQueryData id => trivial
      | reportMetrics component report => exact ⟨report, Command.read?_of_decode hdecode, hasks⟩
      | getQueryId => exact hasks
      | reportSearchResults report => exact hasks
      | submitFeedback report => exact hasks
  · cases h

namespace Service

/-- **The requests that change nothing are just those that fail and those that only ask.**  What a service is made of, its
counter, memory and journal with the room on its device, is the same after a request just if the answer has a status of 400
or above, or the request asks for suggestions, for what is known of a query, or reports no metrics.  The journal may take a
part of any line, or none. -/
theorem handle_eq_self_iff (now : Instant) (s : Service) (r : Incoming) :
    (s.handle now r).1 = s ↔ 400 ≤ (s.handle now r).2.status ∨ r.AsksOnly := by
  cases hc : r.command? with
  | none =>
    obtain ⟨hs, hstatus⟩ := handle_of_no_command hc now s
    exact iff_of_true hs (.inl hstatus)
  | some c =>
    rw [handle_of_command? hc, Incoming.asksOnly_iff hc]
    rcases s.execute_cases now c with ⟨fault, h⟩ | ⟨a, ha, hok, hs⟩
    · rw [h]
      exact iff_of_true rfl (.inl (le_status_ofFault fault))
    · have hstatus : ¬ 400 ≤ (answerOf (.ok a)).status := by
        show ¬ 400 ≤ a.status
        omega
      rw [hok, hs, or_iff_right hstatus]

end Service
end SearchTelemetry
