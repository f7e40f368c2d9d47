import SearchTelemetry.Proofs.Service.Acknowledged
/-!
# Service.Sound — what is kept is as it should be

The store checks nothing.  A record in it is sound because only a report that was found to be as it should be is kept, and
because the journal holds lines of such records alone: what it tells when the service starts again is sound once more.  Both
go into the invariant `Shared.Sound`, which is carried by what can happen to a service, restarts among it (`sound_happen`),
and hence by any run (`kept_sound`).
-/
namespace SearchTelemetry

/-! ## Sound records -/

/-- What was clicked is one of the results. -/
def SearchRecord.Sound (r : SearchRecord) : Prop :=
  ∀ i, r.clicked = some i → i.toNat < r.results.length

/-- There is something in the label and in the text. -/
def FeedbackRecord.Sound (r : FeedbackRecord) : Prop :=
  Blank.trimString r.label ≠ "" ∧ Blank.trimString r.text ≠ ""

/-- There is a component, and there are metrics, each of which is an object by its type. -/
def MetricsRecord.Sound (r : MetricsRecord) : Prop :=
  Blank.trimString r.component ≠ "" ∧ r.metrics ≠ []

def JournalEntry.Sound : JournalEntry → Prop
  | searchResults r => r.Sound
  | feedback r => r.Sound
  | metrics r => r.Sound

theorem SearchReport.sound_of_validate {now : Instant} {report : SearchReport} {record : SearchRecord}
    (h : report.validate now = .ok record) : record.Sound := by
  obtain ⟨-, -, hresults, hclicked, -, -⟩ := validate_eq_ok_iff.1 h
  intro i hi
  rw [hi] at hclicked
  rw [hresults]
  exact hclicked.lt_length

theorem FeedbackReport.sound_of_validate {now : Instant} {report : FeedbackReport} {record : FeedbackRecord}
    (h : report.validate now = .ok record) : record.Sound := by
  obtain ⟨hvalid, rfl⟩ := validate_eq_ok_iff.1 h
  exact hvalid

theorem MetricsReport.component_of_validate {now : Instant} {component : String} {report : MetricsReport}
    {record : MetricsRecord} (h : report.validate now component = .ok record) : Blank.trimString record.component ≠ "" := by
  obtain ⟨hnamed, rfl, -, -⟩ := validate_eq_ok_iff.1 h
  exact hnamed

/-- **A command has only sound entries kept.** -/
theorem Command.sound_of_toKeep? {now : Instant} {c : Command} {e : JournalEntry} (h : c.toKeep? now = some e) : e.Sound := by
  obtain ⟨call, hcall, he⟩ := Option.bind_eq_some_iff.1 h
  cases c with
  | getAutofill partialQuery count => cases hcall
  | getQueryId => cases hcall
  | getQueryData id => cases hcall
  | reportSearchResults report =>
    obtain ⟨record, hv, rfl⟩ := Option.map_eq_some_iff.1 hcall
    obtain rfl := Option.some.inj he
    exact SearchReport.sound_of_validate (ok_of_toOption hv)
  | submitFeedback report =>
    obtain ⟨record, hv, rfl⟩ := Option.map_eq_some_iff.1 hcall
    obtain rfl := Option.some.inj he
    exact FeedbackReport.sound_of_validate (ok_of_toOption hv)
  | reportMetrics component report =>
    obtain ⟨record, hv, rfl⟩ := Option.map_eq_some_iff.1 hcall
    rw [Store.Call.toKeep?] at he
    split at he
    · cases he
    · rename_i hmetrics
      obtain rfl := Option.some.inj he
      exact ⟨MetricsReport.component_of_validate (ok_of_toOption hv), fun hnil => hmetrics (List.isEmpty_iff.2 hnil)⟩

/-! ## Sound stores -/

/-- All that is kept is sound, and the reports on an identifier are filed under it. -/
structure Store.Sound (s : Store) : Prop where
  nodup : s.memory.queries.ids.Nodup
  searches : ∀ q ∈ s.memory.queries, ∀ r ∈ q.searchResults, r.queryId = q.queryId ∧ r.Sound
  feedback : ∀ r ∈ s.memory.feedback, r.Sound
  metrics : ∀ r ∈ s.memory.metrics, r.Sound

theorem Queries.find?_of_mem : ∀ {qs : Queries} {q : QueryRecord}, qs.ids.Nodup → q ∈ qs → qs.find? q.queryId = some q
  | p :: qs, q, hnodup, hq => by
    obtain ⟨hp, hnodup⟩ := List.nodup_cons.1 hnodup
    rw [find?_cons]
    rcases List.mem_cons.1 hq with rfl | hq
    · exact if_pos rfl
    · have hne : p.queryId ≠ q.queryId := fun heq => hp (List.mem_map.2 ⟨q, hq, heq.symm⟩)
      rw [if_neg hne]
      exact find?_of_mem hnodup hq

/-- A store that keeps a log of sound entries is sound. -/
theorem Store.sound_of_keeps {s : Store} {l : Log} {ids : List QueryId} (h : s.memory.Keeps l ids)
    (hl : ∀ e ∈ l, e.Sound) : s.Sound where
  nodup := h.nodup
  searches q hq r hr := by
    rw [(h.record _ q (Queries.find?_of_mem h.nodup hq)).2, Log.reportsOn, List.mem_filter] at hr
    obtain ⟨hr, hid⟩ := hr
    obtain ⟨e, he, hsearch⟩ := List.mem_filterMap.1 hr
    refine ⟨of_decide_eq_true hid, ?_⟩
    cases e with
    | searchResults r' => exact Option.some.inj hsearch ▸ hl _ he
    | feedback r' => cases hsearch
    | metrics r' => cases hsearch
  feedback r hr := by
    rw [h.feedback] at hr
    obtain ⟨e, he, hfeedback⟩ := List.mem_filterMap.1 hr
    cases e with
    | searchResults r' => cases hfeedback
    | feedback r' => exact Option.some.inj hfeedback ▸ hl _ he
    | metrics r' => cases hfeedback
  metrics r hr := by
    rw [h.metrics] at hr
    obtain ⟨e, he, hmetrics⟩ := List.mem_filterMap.1 hr
    cases e with
    | searchResults r' => cases hmetrics
    | feedback r' => cases hmetrics
    | metrics r' => exact Option.some.inj hmetrics ▸ hl _ he

/-! ## Sound journals -/

/-- The line of an entry tells that entry, or none. -/
def JournalEntry.ReadsBack (e : JournalEntry) : Prop :=
  ∀ e', JournalEntry.ofLine? e.line = some e' → e' = e

namespace Journal

/-- A journal that can be written on, and tells sound entries only. -/
structure Sound (bs : List UInt8) : Prop where
  ended : isTorn bs = false
  entries : ∀ e ∈ Journal.entries bs, e.Sound

/-- **Lines of sound entries keep a journal sound**, if they tell these entries or none. -/
theorem Sound.append_lines : ∀ {es : List JournalEntry} {bs : List UInt8}, Sound bs →
    (∀ e ∈ es, e.Sound ∧ e.ReadsBack) → Sound (bs ++ es.flatMap JournalEntry.line)
  | [], bs, h, _ => by simpa using h
  | e :: es, bs, h, hes => by
    obtain ⟨hsound, hback⟩ := hes e List.mem_cons_self
    have hline : Sound (bs ++ e.line) := by
      refine ⟨isTorn_append (isTorn_line e) h.ended, fun e' he' => ?_⟩
      rw [entries_append h.ended, List.mem_append] at he'
      rcases he' with he' | he'
      · exact h.entries e' he'
      · -- `entries` reads the text in the line, while `ReadsBack` speaks of the whole line
        rw [JournalEntry.line_eq, entries_line e.lineFeed_not_mem_text, Option.mem_toList] at he'
        have hread := JournalEntry.ofLine?_append_lineFeed e.text
        rw [hback e' (hread.trans he')]
        exact hsound
    rw [List.flatMap_cons, ← List.append_assoc]
    exact hline.append_lines fun e' he' => hes e' (List.mem_cons_of_mem e he')

end Journal

/-! ## What can happen to a service -/

/-- What can happen next to a service. -/
inductive Occurrence where
  /-- A request is answered as a whole, at an instant. -/
  | request (now : Instant) (r : Incoming)
  /-- Something goes on while requests are answered: a part of a command, or a change of the room for the journal. -/
  | part (t : Shared.Step)
  /-- The service ends and starts again, on its own journal if it has one. -/
  | restart (firstQueryId : QueryId) (maxSuggestions : Nat)

namespace Shared

/-- A request is answered, unless it asks for an identifier and the counter is held. -/
def answer (s : Shared) (now : Instant) (r : Incoming) : Shared :=
  if r.command?.any fun c => s.waits c then s else { s with service := (s.service.handle now r).1 }

def happen (s : Shared) : Occurrence → Shared
  | .request now r => s.answer now r
  | .part t => s.step t
  | .restart firstQueryId maxSuggestions => start (s.service.store.journal.map (·.bytes)) firstQueryId maxSuggestions

/-- The entries that are added. -/
def gained (s : Shared) : Occurrence → Log
  | .request now r => (r.command?.map fun c => s.taken (.command now c)).getD []
  | .part t => s.taken t
  | .restart .. => []

/-- The service after all that happened, in order. -/
def live : Shared → List Occurrence → Shared
  | s, [] => s
  | s, o :: os => live (s.happen o) os

/-- The entries whose lines are added to the journal, if there is one. -/
def journaled (s : Shared) (o : Occurrence) : Log :=
  if s.service.store.journal.isSome then s.gained o else []

/-- All entries whose lines were ever added to the journal, in order. -/
def everJournaled : Shared → List Occurrence → Log
  | _, [] => []
  | s, o :: os => s.journaled o ++ everJournaled (s.happen o) os

/-- A request comes to the command that it is read as, or to nothing. -/
theorem answer_eq (s : Shared) (now : Instant) (r : Incoming) :
    s.answer now r = (r.command?.map fun c => s.step (.command now c)).getD s := by
  unfold answer
  cases hc : r.command? with
  | none =>
    rw [Option.any_none, if_neg (by decide), (Service.handle_of_no_command hc now s.service).1]
    rfl
  | some c => simp [step, Service.handle_of_command? hc]

/-- What the service keeps is a log of sound entries, and its journal is sound. -/
def Sound (s : Shared) : Prop :=
  ∃ l ids bytes, s.service.store.Holds l (ids ++ s.issuing.toList) bytes ∧ (∀ e ∈ l, e.Sound) ∧
    ∀ bs, bytes = some bs → Journal.Sound bs

theorem Sound.store {s : Shared} : s.Sound → s.service.store.Sound
  | ⟨_, _, _, h, hl, _⟩ => Store.sound_of_keeps h.memory hl

theorem sound_of_mem_taken {s : Shared} {t : Step} {e : JournalEntry} (h : e ∈ s.taken t) : e.Sound := by
  cases t with
  | command now c =>
    rw [taken, Service.taken] at h
    split at h
    · exact Command.sound_of_toKeep? (Option.mem_toList.1 h)
    · cases h
  | record now => cases h
  | issue => cases h
  | room bytes => cases h

theorem Sound.step {s : Shared} (h : s.Sound) (t : Step)
    (hback : s.service.store.journal.isSome → ∀ e ∈ s.taken t, e.ReadsBack) : (s.step t).Sound := by
  obtain ⟨l, ids, bytes, hholds, hl, hjournal⟩ := h
  refine ⟨_, _, _, step_spec hholds t, fun e he => ?_, fun bs hbs => ?_⟩
  · rcases List.mem_append.1 he with he | he
    · exact hl e he
    · exact sound_of_mem_taken he
  · obtain ⟨bs, hbytes, rfl⟩ := Option.map_eq_some_iff.1 hbs
    have hsome : s.service.store.journal.isSome := by rw [← Option.isSome_map, hholds.journal, hbytes, Option.isSome_some]
    exact (hjournal bs hbytes).append_lines fun e he => ⟨sound_of_mem_taken he, hback hsome e he⟩

/-- A service that starts on a journal that tells sound entries is sound, and so is one without a journal. -/
theorem sound_start {journal : Option (List UInt8)} (h : ∀ bs, journal = some bs → ∀ e ∈ Journal.entries bs, e.Sound)
    (firstQueryId : QueryId) (maxSuggestions : Nat) : (start journal firstQueryId maxSuggestions).Sound := by
  refine ⟨_, [], _, holds_start journal firstQueryId maxSuggestions, fun e he => ?_, fun bs hbs => ?_⟩
  · cases journal with
    | none => cases he
    | some bs => exact h bs rfl e he
  · obtain ⟨bs, rfl, rfl⟩ := Option.map_eq_some_iff.1 hbs
    refine ⟨Journal.isTorn_mended bs, fun e he => h bs rfl e ?_⟩
    rwa [Journal.entries_mended] at he

/-- **Whatever happens to a sound service, it stays sound.** -/
theorem sound_happen {s : Shared} (h : s.Sound) (o : Occurrence) (hback : ∀ e ∈ s.journaled o, e.ReadsBack) :
    (s.happen o).Sound := by
  have hgained : s.service.store.journal.isSome → ∀ e ∈ s.gained o, e.ReadsBack := by
    intro hsome
    rwa [journaled, if_pos hsome] at hback
  cases o with
  | request now r =>
    rw [happen, answer_eq]
    cases hc : r.command? with
    | none => exact h
    | some c =>
      rw [gained, hc] at hgained
      exact h.step (.command now c) hgained
  | part t => exact h.step t hgained
  | restart firstQueryId maxSuggestions =>
    -- what was kept is forgotten, and only the journal vouches for what is kept now
    obtain ⟨l, ids, bytes, hholds, hl, hjournal⟩ := h
    refine sound_start (fun bs hbs => (hjournal bs ?_).entries) firstQueryId maxSuggestions
    rw [← hholds.journal, hbs]

theorem sound_live : ∀ {os : List Occurrence} {s : Shared}, s.Sound → (∀ e ∈ s.everJournaled os, e.ReadsBack) → (s.live os).Sound
  | [], _, h, _ => h
  | o :: os, s, h, hback => by
    rw [everJournaled, List.forall_mem_append] at hback
    show ((s.happen o).live os).Sound
    exact sound_live (sound_happen h o hback.1) hback.2

/-- **Everything that a service keeps is sound, at any time of its life.**  Let it start on an empty journal, on one that tells
sound entries only, or without one, and let any requests come, in any interleaving, with any room on the journal's device and
with any restarts.  What was clicked is then among the results in every search record, no feedback has a blank label or a blank
text, no metrics have a blank component or no entries, and the reports on an identifier are filed under it, once.  It is taken
for granted that a line which was added to the journal is read as what it was written for, or not at all. -/
theorem kept_sound {journal : Option (List UInt8)} (hjournal : ∀ bs, journal = some bs → ∀ e ∈ Journal.entries bs, e.Sound)
    (firstQueryId : QueryId) (maxSuggestions : Nat) (os : List Occurrence)
    (hback : ∀ e ∈ (start journal firstQueryId maxSuggestions).everJournaled os, e.ReadsBack) :
    ((start journal firstQueryId maxSuggestions).live os).service.store.Sound :=
  (sound_live (sound_start hjournal firstQueryId maxSuggestions) hback).store

theorem kept_sound_restarted :
    let r : Incoming := ⟨"POST", "/v0/SubmitFeedback", [], Utf8.bytes "\x7b\"label\":\"a\",\"text\":\"b\"\x7d"⟩
    let os : List Occurrence :=
      [.part (.room (some 3)), .request ⟨0, 0⟩ r, .part (.room none), .request ⟨0, 0⟩ r, .part (.record ⟨0, 0⟩),
        .restart 7 10, .request ⟨0, 0⟩ r]
    let s := start (some []) 0 10
    (s.live os).service.store.memory.feedback.length = 2 ∧ (∀ e ∈ s.everJournaled os, e.ReadsBack) ∧
      (s.live os).service.store.Sound := by
  intro r os s
  let f : FeedbackRecord := ⟨"a", "", "b", ⟨0, 0⟩⟩
  have hjournaled : ∀ e ∈ s.everJournaled os, e.feedback? = some f := by decide +kernel
  have hlegible : JournalEntry.Legible (.feedback f) :=
    JournalEntry.legible_of_valid ⟨by decide +kernel, by decide⟩ (by decide)
  have hback : ∀ e ∈ s.everJournaled os, e.ReadsBack := by
    intro e he e' he'
    have hf := hjournaled e he
    cases e with
    | searchResults r => cases hf
    | feedback r =>
      obtain rfl := Option.some.inj hf
      exact Option.some.inj (he'.symm.trans hlegible.ofLine?)
    | metrics r => cases hf
  refine ⟨by decide +kernel, hback, kept_sound ?_ 0 10 os hback⟩
  intro bs hbs e he
  obtain rfl := Option.some.inj hbs
  cases he

end Shared
end SearchTelemetry
