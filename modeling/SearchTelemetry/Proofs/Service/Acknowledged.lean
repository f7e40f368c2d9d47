import SearchTelemetry.Proofs.Service.Clients
/-!
# Service.Acknowledged — what becomes of a report that is acknowledged

A request that is read as a report and answered with success is kept in memory and has a line of its own in the journal.
That line tells just the entry that is kept, unless the report is a bare list of metrics in which brackets nest as deep as
the reader lets them: in the journal the list stands one bracket deeper, and nothing is read from the line any more
(`acknowledged`).
-/
namespace SearchTelemetry

open Json (Value nestingItems)
open Json.Reader (maxDepth)

/-! ## Commands -/

namespace Command

/-- All numbers in the metrics of a command are whole. -/
def HasWholeNumbers : Command → Prop
  | reportMetrics _ report => ∀ v ∈ report.entries, v.Whole
  | _ => True

/-- A bare list of metrics in which brackets nest as deep as the reader lets them. -/
def IsDeepest : Command → Prop
  | reportMetrics _ (.bare metrics) => (MetricsReport.bare metrics).nesting = maxDepth
  | _ => False

instance : DecidablePred IsDeepest
  | reportMetrics _ (.bare metrics) => inferInstanceAs (Decidable ((MetricsReport.bare metrics).nesting = maxDepth))
  | reportMetrics _ (.wrapped _) | getAutofill .. | getQueryId | reportSearchResults _ | submitFeedback _ | getQueryData _ =>
    inferInstanceAs (Decidable False)

/-- Metrics that were read out of a request are what its body holds. -/
theorem read?_of_decode {e : Endpoint} {method : String} {headers : Headers} {body : List UInt8} {component : String}
    {report : MetricsReport} (h : decode e method headers body = .ok (.reportMetrics component report)) :
    MetricsReport.read? body = some report := by
  unfold decode at h
  split at h
  · cases h
  cases e with
  | getQueryId => cases h
  | getAutofill =>
    dsimp only at h
    split at h
    · cases h
    · obtain ⟨count, -, hc⟩ := exists_of_map_eq_ok h
      cases hc
  | getQueryData =>
    dsimp only at h
    split at h
    · cases h
    · obtain ⟨id, -, hc⟩ := exists_of_map_eq_ok h
      cases hc
  | reportSearchResults | submitFeedback =>
    obtain ⟨r, -, hc⟩ := exists_of_map_eq_ok h
    cases hc
  | reportMetrics =>
    obtain ⟨r, hb, hc⟩ := exists_of_map_eq_ok h
    obtain ⟨-, rfl⟩ := Command.reportMetrics.inj hc
    unfold jsonBody at hb
    split at hb
    · cases hb
    split at hb
    · rename_i r' hread
      obtain rfl := Except.ok.inj hb
      exact hread
    · cases hb

/-- Metrics that are whole and in order make an entry that can be read back, which nests one bracket deeper than a bare list
of them and just as deep as an object around it. -/
theorem valid_of_validate {now : Instant} (hnow : now.Valid) {component : String} {report : MetricsReport}
    (hn : report.nesting ≤ maxDepth) (ho : ∀ v ∈ report.entries, v.InOrder) (hw : ∀ v ∈ report.entries, v.Whole)
    {record : MetricsRecord} (h : report.validate now component = .ok record) :
    (JournalEntry.metrics record).Valid ∧
      ((reportMetrics component report).IsDeepest ↔ maxDepth < (JournalEntry.metrics record).nesting) := by
  obtain ⟨hat, hmetrics⟩ := MetricsReport.of_validate h
  refine ⟨⟨hat ▸ hnow, fun fs hfs => ?_⟩, ?_⟩
  · have hmem : Value.object fs ∈ report.entries := hmetrics ▸ List.mem_map_of_mem hfs
    exact ⟨hw _ hmem, ho _ hmem⟩
  · show _ ↔ maxDepth < nestingItems (record.metrics.map .object) + 2
    rw [hmetrics]
    cases report with
    | wrapped metrics =>
      have hle : nestingItems metrics + 2 ≤ maxDepth := hn
      exact ⟨False.elim, fun hlt => absurd hle (Nat.not_le_of_lt hlt)⟩
    | bare metrics =>
      have hle : nestingItems metrics + 1 ≤ maxDepth := hn
      exact ⟨fun heq => Nat.lt_succ_of_le (Nat.le_of_eq (Eq.symm heq)), fun hlt =>
        Nat.le_antisymm hle (Nat.le_of_lt_succ hlt)⟩

/-- **The entry of a command that was read out of a request** can be read back, but for how deep brackets nest in it: no
deeper than the reader lets them, unless the command is a bare list in which they nest as deep as that. -/
theorem valid_of_toKeep? {e : Endpoint} {method : String} {headers : Headers} {body : List UInt8} {c : Command}
    (hc : decode e method headers body = .ok c) (hw : c.HasWholeNumbers) {now : Instant} (hnow : now.Valid)
    {entry : JournalEntry} (he : c.toKeep? now = some entry) :
    entry.Valid ∧ (c.IsDeepest ↔ maxDepth < entry.nesting) := by
  obtain ⟨call, hcall, hentry⟩ := Option.bind_eq_some_iff.1 he
  cases c with
  | getAutofill partialQuery count => cases hcall
  | getQueryId => cases hcall
  | getQueryData id => cases hcall
  | reportSearchResults report =>
    obtain ⟨record, hrecord, rfl⟩ := Option.map_eq_some_iff.1 hcall
    obtain rfl := Option.some.inj hentry
    exact ⟨SearchReport.valid_of_validate hnow (ok_of_toOption hrecord),
      False.elim, fun hlt => absurd hlt (by decide : ¬ maxDepth < 2)⟩
  | submitFeedback report =>
    obtain ⟨record, hrecord, rfl⟩ := Option.map_eq_some_iff.1 hcall
    obtain rfl := Option.some.inj hentry
    exact ⟨FeedbackReport.valid_of_validate hnow (ok_of_toOption hrecord),
      False.elim, fun hlt => absurd hlt (by decide : ¬ maxDepth < 1)⟩
  | reportMetrics component report =>
    obtain ⟨record, hrecord, rfl⟩ := Option.map_eq_some_iff.1 hcall
    obtain ⟨hn, ho⟩ := MetricsReport.inOrder_of_read? (read?_of_decode hc)
    change (if record.metrics.isEmpty then none else some (JournalEntry.metrics record)) = some entry at hentry
    split at hentry
    · cases hentry
    · obtain rfl := Option.some.inj hentry
      exact valid_of_validate hnow hn ho hw (ok_of_toOption hrecord)

end Command

/-! ## Requests -/

/-- The command that a request is read as, if it gets that far. -/
def Incoming.command? (r : Incoming) : Option Command :=
  match Route.ofTarget r.target with
  | .endpoint name =>
    if Service.maxBody < r.body.length then none
    else (Endpoint.ofName? name).bind fun e => (Command.decode e r.method r.headers r.body).toOption
  | _ => none

theorem Incoming.exists_decode {r : Incoming} {c : Command} (h : r.command? = some c) :
    ∃ e, Command.decode e r.method r.headers r.body = .ok c := by
  unfold command? at h
  split at h
  · split at h
    · cases h
    · obtain ⟨e, -, hc⟩ := Option.bind_eq_some_iff.1 h
      exact ⟨e, ok_of_toOption hc⟩
  · cases h

/-- A body that is not blank is what its reader makes of it. -/
theorem Command.jsonBody_eq {α : Type} (e : Endpoint) {read? : List UInt8 → Option α} {body : List UInt8} {a : α}
    (hb : body.all Blank.isBlankByte = false) (h : read? body = some a) : jsonBody e read? body = .ok a := by
  simp only [jsonBody, hb, h]
  rfl

theorem Incoming.command?_eq {r : Incoming} (e : Endpoint) {c : Command}
    (hroute : Route.ofTarget r.target = .endpoint e.name) (hmax : r.body.length ≤ Service.maxBody)
    (hc : Command.decode e r.method r.headers r.body = .ok c) : r.command? = some c := by
  simp [command?, hroute, Nat.not_lt_of_le hmax, Endpoint.ofName?_name, hc, Except.toOption]

theorem Store.call_of_toKeep? (s : Store) : ∀ {call : Call} {e : JournalEntry}, call.toKeep? = some e →
    s.call call = s.commit e
  | .searchResults _, _, h | .feedback _, _, h => by
    obtain rfl := Option.some.inj h
    rfl
  | .metrics r, e, h => by
    change (if r.metrics.isEmpty then none else some (JournalEntry.metrics r)) = some e at h
    split at h
    · cases h
    · rename_i hm
      obtain rfl := Option.some.inj h
      exact if_neg hm

namespace Service

theorem le_status_ofFault (fault : Fault) : 400 ≤ (Answer.ofFault fault).status :=
  fault.status_ge

theorem status_ofFault_ne (fault : Fault) : (Answer.ofFault fault).status ≠ 200 := fun h => by
  have hge := le_status_ofFault fault
  omega

/-- A request that is read as a command is answered with what comes of it. -/
theorem handle_of_command? {r : Incoming} {c : Command} (h : r.command? = some c) (now : Instant) (s : Service) :
    s.handle now r = ((s.execute now c).1, answerOf (s.execute now c).2) := by
  unfold Incoming.command? at h
  unfold handle dispatch
  cases hroute : Route.ofTarget r.target with
  | unreadable => simp [hroute] at h
  | none path => simp [hroute] at h
  | endpoint name =>
    simp only [hroute] at h
    split at h
    · cases h
    · rename_i hmax
      obtain ⟨e, he, hc⟩ := Option.bind_eq_some_iff.1 h
      simp only [if_neg hmax, he, ok_of_toOption hc]

/-- A request that is not read as a command changes nothing and is answered with an error. -/
theorem handle_of_no_command {r : Incoming} (h : r.command? = none) (now : Instant) (s : Service) :
    (s.handle now r).1 = s ∧ 400 ≤ (s.handle now r).2.status := by
  unfold Incoming.command? at h
  unfold handle dispatch
  cases hroute : Route.ofTarget r.target with
  | unreadable => exact ⟨rfl, Nat.le_refl 400⟩
  | none path => exact ⟨rfl, le_status_ofFault _⟩
  | endpoint name =>
    simp only [hroute] at h ⊢
    split
    · exact ⟨rfl, (by decide : 400 ≤ 413)⟩
    · rename_i hmax
      rw [if_neg hmax] at h
      cases he : Endpoint.ofName? name with
      | none => exact ⟨rfl, le_status_ofFault _⟩
      | some e =>
        cases hc : Command.decode e r.method r.headers r.body with
        | error fault =>
          simp only [hc]
          exact ⟨trivial, le_status_ofFault fault⟩
        | ok c => simp [he, hc, Except.toOption] at h

/-- A request that is not read as a command is not answered with success. -/
theorem status_of_no_command {r : Incoming} (h : r.command? = none) (now : Instant) (s : Service) :
    (s.handle now r).2.status ≠ 200 := fun hok => by
  have hge := (handle_of_no_command h now s).2
  omega

/-- **A report that is acknowledged** is in memory, and its line in the journal. -/
theorem commit_of_status {now : Instant} {s : Service} {r : Incoming} {c : Command} (hc : r.command? = some c)
    {e : JournalEntry} (he : c.toKeep? now = some e) (hok : (s.handle now r).2.status = 200) :
    (s.handle now r).1.store.memory = s.store.memory.add e ∧
      (s.handle now r).1.store.journal.map (·.bytes) = s.store.journal.map (·.bytes ++ e.line) := by
  obtain ⟨call, hcall, hentry⟩ := Option.bind_eq_some_iff.1 he
  rw [handle_of_command? hc, execute_of_call? hcall, s.store.call_of_toKeep? hentry] at hok ⊢
  rcases s.store.commit_cases e with ⟨-, hm, hj⟩ | ⟨hf, -, -⟩
  · exact ⟨hm, hj⟩
  · obtain ⟨fault, hfault⟩ := Option.isSome_iff_exists.1 hf
    refine absurd hok ?_
    simp only [kept, hfault]
    exact status_ofFault_ne fault

end Service

/-! ## Acknowledged reports -/

namespace JournalEntry

theorem ofLine?_text {c : Command} {e : JournalEntry} (h : e.Valid) (hd : c.IsDeepest ↔ maxDepth < e.nesting) :
    JournalEntry.ofLine? e.text = if c.IsDeepest then none else some e := by
  rw [← nesting_toValue] at hd
  split
  · rename_i hc
    exact ofLine?_of_deep h (hd.1 hc)
  · rename_i hc
    exact legible_of_valid h (Nat.le_of_not_lt fun hlt => hc (hd.2 hlt))

end JournalEntry

namespace Service

/-- The journal of a service that clients have used ends with a line feed. -/
theorem exists_journal (bs : List UInt8) (firstQueryId : QueryId) (maxSuggestions : Nat) (ts : List Shared.Step) :
    ∃ j, ((Shared.start (some bs) firstQueryId maxSuggestions).run ts).service.store.journal = some j ∧
      Journal.isTorn j.bytes = false := by
  have hstart : (Shared.start (some bs) firstQueryId maxSuggestions).service.store.Holds (Journal.entries bs)
      ([] ++ (Shared.start (some bs) firstQueryId maxSuggestions).issuing.toList) (some (Journal.mended bs)) :=
    Shared.holds_start (some bs) firstQueryId maxSuggestions
  obtain ⟨j, hj, hbytes⟩ := Option.map_eq_some_iff.1 (Shared.run_spec ts hstart).journal
  exact ⟨j, hj, hbytes ▸ Journal.isTorn_append (Journal.isTorn_lines _) (Journal.isTorn_mended bs)⟩

/-- **A report that is acknowledged is in memory and in the journal, and its line tells it, but for one case.**  Let a
service run on any journal, used by any clients, and answer a request with success.  The request was then read as a command,
and if the command is a report with whole numbers, its entry is added to memory, and a line of its own to the journal.  The
line tells just that entry, and so does the journal, whatever is added to it later; unless the report is a bare list in which
brackets nest as deep as the reader lets them, and then the line tells nothing. -/
theorem acknowledged (bs : List UInt8) (firstQueryId : QueryId) (maxSuggestions : Nat) (ts : List Shared.Step)
    {now : Instant} (hnow : now.Valid) (r : Incoming) :
    let s := ((Shared.start (some bs) firstQueryId maxSuggestions).run ts).service
    (s.handle now r).2.status = 200 → ∃ c, r.command? = some c ∧
      (c.HasWholeNumbers → ∀ e, c.toKeep? now = some e →
        let s' := (s.handle now r).1
        let told := if c.IsDeepest then none else some e
        s'.store.memory = s.store.memory.add e ∧ s'.store.journalBytes = s.store.journalBytes ++ e.line ∧
          0x0A ∉ e.text ∧ JournalEntry.ofLine? e.line = told ∧
          ∀ more, Journal.entries (s'.store.journalBytes ++ more) =
            Journal.entries s.store.journalBytes ++ told.toList ++ Journal.entries more) := by
  intro s hok
  cases hc : r.command? with
  | none => exact absurd hok (status_of_no_command hc now s)
  | some c =>
    refine ⟨c, rfl, fun hw e he => ?_⟩
    obtain ⟨endpoint, hdecode⟩ := r.exists_decode hc
    obtain ⟨hvalid, hdeep⟩ := Command.valid_of_toKeep? hdecode hw hnow he
    have htold := JournalEntry.ofLine?_text hvalid hdeep
    obtain ⟨hmemory, hjournal⟩ := commit_of_status hc he hok
    obtain ⟨j, hj, htorn⟩ := exists_journal bs firstQueryId maxSuggestions ts
    have hbytes : s.store.journalBytes = j.bytes := by simp [s, Store.journalBytes, hj]
    have hbytes' : (s.handle now r).1.store.journalBytes = j.bytes ++ e.line := by
      simp [Store.journalBytes, hjournal, s, hj]
    have hline : JournalEntry.ofLine? e.line = if c.IsDeepest then none else some e := by
      rw [JournalEntry.line_eq, JournalEntry.ofLine?_append_lineFeed, htold]
    refine ⟨hmemory, by rw [hbytes, hbytes'], e.lineFeed_not_mem_text, hline, fun more => ?_⟩
    have htorn' : Journal.isTorn (j.bytes ++ e.line) = false := Journal.isTorn_append (Journal.isTorn_line e) htorn
    rw [hbytes, hbytes', Journal.entries_append htorn', Journal.entries_append htorn, JournalEntry.line_eq,
      Journal.entries_line e.lineFeed_not_mem_text, htold]

theorem acknowledged_feedback :
    let s := ((Shared.start (some []) 0 10).run []).service
    let r : Incoming := ⟨"POST", "/v0/SubmitFeedback", [], Utf8.bytes "\x7b\"label\":\"a\",\"text\":\"b\"\x7d"⟩
    let e : JournalEntry := .feedback ⟨"a", "", "b", ⟨0, 0⟩⟩
    (⟨0, 0⟩ : Instant).Valid ∧ (s.handle ⟨0, 0⟩ r).2.status = 200 ∧
      (s.handle ⟨0, 0⟩ r).1.store.memory = s.store.memory.add e ∧ JournalEntry.ofLine? e.line = some e ∧
      Journal.entries ((s.handle ⟨0, 0⟩ r).1.store.journalBytes ++ []) = [e] := by
  intro s r e
  have hnow : (⟨0, 0⟩ : Instant).Valid := ⟨by decide +kernel, by decide⟩
  have hok : (s.handle ⟨0, 0⟩ r).2.status = 200 := by decide +kernel
  have hread : FeedbackReport.read? r.body = some ⟨"a", "", "b"⟩ := by decide +kernel
  have hbody := Command.jsonBody_eq .submitFeedback (by decide +kernel) hread
  have hc : r.command? = some (.submitFeedback ⟨"a", "", "b"⟩) :=
    Incoming.command?_eq .submitFeedback (by decide +kernel) (by decide +kernel)
      (by simp only [Command.decode, hbody]; rfl)
  have he : (Command.submitFeedback ⟨"a", "", "b"⟩).toKeep? ⟨0, 0⟩ = some e := rfl
  obtain ⟨c, hc', h⟩ := acknowledged [] 0 10 [] hnow r hok
  obtain rfl := Option.some.inj (hc.symm.trans hc')
  obtain ⟨hmemory, -, -, hline, hentries⟩ := h trivial e he
  exact ⟨hnow, hok, hmemory, hline, hentries []⟩

/-- Arrays one in another, so many in the outermost one. -/
def nestedArray : Nat → Value
  | 0 => .array []
  | n + 1 => .array [nestedArray n]

theorem whole_nestedArray : ∀ n, (nestedArray n).Whole
  | 0 => ⟨trivial, trivial⟩
  | n + 1 => ⟨trivial, whole_nestedArray n, trivial⟩

set_option maxRecDepth 10000 in
/-- A bare list in which brackets nest as deep as the reader lets them is acknowledged and kept, and then not read back. -/
theorem acknowledged_deepest :
    let s := ((Shared.start (some []) 0 10).run []).service
    let r : Incoming := ⟨"POST", "/v0/ReportMetrics", [("component", [0x63])],
      Utf8.bytes "[\x7b\"a\":" ++ List.replicate 125 0x5B ++ List.replicate 125 0x5D ++ Utf8.bytes "\x7d]"⟩
    ∃ c e, r.command? = some c ∧ c.HasWholeNumbers ∧ c.toKeep? ⟨0, 0⟩ = some e ∧
      (s.handle ⟨0, 0⟩ r).2.status = 200 ∧ (s.handle ⟨0, 0⟩ r).1.store.memory.metrics.length = 1 ∧
      (s.handle ⟨0, 0⟩ r).1.store.journalBytes = e.line ∧ JournalEntry.ofLine? e.line = none := by
  intro s r
  let fs : Json.Fields := [("a", nestedArray 124)]
  refine ⟨.reportMetrics "c" (.bare [.object fs]), .metrics ⟨"c", [fs], ⟨0, 0⟩⟩, ?_, ?_, ?_, ?_, ?_, ?_, ?_⟩
  · have hread : MetricsReport.read? r.body = some (.bare [.object fs]) := rfl
    have hbody := Command.jsonBody_eq .reportMetrics (by decide +kernel) hread
    refine Incoming.command?_eq .reportMetrics (by decide +kernel) (by decide +kernel) ?_
    simp only [Command.decode, hbody]
    rfl
  · intro v hv
    obtain rfl := List.mem_singleton.1 hv
    exact ⟨trivial, whole_nestedArray 124, trivial⟩
  · rfl
  · decide +kernel
  · decide +kernel
  · decide +kernel
  · exact Option.isNone_iff_eq_none.1 (by decide +kernel)

end Service
end SearchTelemetry
