import SearchTelemetry.Proofs.Relay.Events
import SearchTelemetry.Relay.Serving
/-!
# Relay.Stopping — a stop lets every exchange come to its end

A stop does nothing to a connection that is not idle, so that a run with stops is the run without them, up to an idle point at
which it may end (`run_calm`).  At an idle point all that was read has been answered in full (`served_run`); hence, if nothing
goes wrong but for stops, each client is served in full (`Graceful`).  The loop that accepts connections takes no more of them
once it is to stop, and returns only when all of them are closed (`shutdown_graceful`).
-/
namespace SearchTelemetry
namespace Relay

open Http (IsBlank RequestHead ResponseHead)

/-! ## Stops -/

/-- What happens but for stops. -/
def calm (hs : List (Moment × Happening)) : List (Moment × Happening) :=
  hs.filter fun h => h.2 ≠ .stop

namespace Connection

variable {c : Context} {k : Connection}

/-- A stop ends a connection that is idle, at once and for good. -/
theorem run_of_idle_stop (h : k.phase = .idle) (m : Moment) (after : List (Moment × Happening)) :
    (k.run c ((m, .stop) :: after)).1.phase = .closed ∧ (k.run c ((m, .stop) :: after)).2 = [.close] := by
  have hstep : k.step c m .stop = k.finish [] := by simp [step, h]
  obtain ⟨hclosed, hnothing⟩ := run_of_closed (c := c) (k := { k with phase := .closed }) rfl after
  show ((k.step c m .stop).1.run c after).1.phase = .closed ∧ (k.step c m .stop).2 ++ ((k.step c m .stop).1.run c after).2 = _
  rw [hstep]
  refine ⟨hclosed, ?_⟩
  show [Act.close] ++ (run c { k with phase := .closed } after).2 = _
  rw [hnothing]
  rfl

/-- **Stops make no difference to a connection until one meets it idle**, and that one ends it. -/
theorem run_calm (c : Context) (hs : List (Moment × Happening)) (k : Connection) :
    k.run c hs = k.run c (calm hs) ∨
      ∃ before m after, hs = before ++ (m, .stop) :: after ∧ (k.run c before).1.phase = .idle ∧
        k.run c before = k.run c (calm before) := by
  induction hs generalizing k with
  | nil => exact .inl rfl
  | cons mh hs ih =>
    obtain ⟨m, e⟩ := mh
    by_cases he : e = .stop
    · subst he
      -- the first stop at an idle point is the last that matters, and any other is passed over
      by_cases hidle : k.phase = .idle
      · exact .inr ⟨[], m, hs, rfl, hidle, rfl⟩
      · have hstep := step_stop_of_not_idle c m hidle
        have hskip : ∀ later, k.run c ((m, .stop) :: later) = k.run c later := fun later => by
          show Step.after (k.step c m .stop).2 ((k.step c m .stop).1.run c later) = _
          rw [hstep]
          rfl
        have hcalm : ∀ later, calm ((m, .stop) :: later) = calm later := fun later => by simp [calm]
        rcases ih k with heq | ⟨before, m', after, rfl, hphase, heq⟩
        · exact .inl (by rw [hskip, hcalm, heq])
        · exact .inr ⟨(m, .stop) :: before, m', after, rfl, by rwa [hskip], by rw [hskip, hcalm, heq]⟩
    · have hcalm : ∀ later, calm ((m, e) :: later) = (m, e) :: calm later := fun later => by simp [calm, he]
      have hgo : ∀ later, k.run c ((m, e) :: later) = Step.after (k.step c m e).2 ((k.step c m e).1.run c later) :=
        fun later => rfl
      rcases ih (k.step c m e).1 with heq | ⟨before, m', after, rfl, hphase, heq⟩
      · exact .inl (by rw [hcalm, hgo, hgo, heq])
      · exact .inr ⟨(m, e) :: before, m', after, rfl, hphase, by rw [hcalm, hgo, hgo, heq]⟩

end Connection

/-! ## Responses that are complete -/

/-- The failures that are told. -/
def Act.failures (acts : List Act) : List RelayEvent :=
  acts.filterMap fun
    | tell (.failure id time message status) => some (.failure id time message status)
    | _ => none

theorem Act.failures_append (a b : List Act) : failures (a ++ b) = failures a ++ failures b :=
  List.filterMap_append

/-- **What a client is owed**: a whole response for each request whose head was read, one after the other, and nothing else. -/
structure Served (c : Context) (client : Inlet) (backend : Nat → Inlet) (k : Connection) (acts : List Act) (rs : List Reply) :
    Prop where
  bytes : Act.clientBytes acts = rs.flatMap Reply.out
  exchanges : k.exchanges = rs.length
  requests : RequestsAt c.settings.maxHeadBytes (rs.map Reply.request) client.unread
  whole : ∀ i r, rs[i]? = some r →
    WholeReply c.settings.maxHeadBytes r.request.parts.method (backend (i + 1)) r.out

/-- A connection that has closed without a failure has brought its last exchange to its end. -/
def Course.Completes (c : Context) (s : Course) : Prop :=
  ∃ rs last own, s.RepliesHold c rs last own ∧
    (s.connection.phase = .closed → Act.failures s.acts = [] → last = none ∧ own = none)

section Moves

variable {c : Context} {s t : Course} {rs : List Reply} {last : Option Reply} {own : Option Gateway}

theorem Course.RepliesHold.completes (h : s.RepliesHold c rs last own) (hphase : s.connection.phase ≠ .closed) :
    s.Completes c :=
  ⟨rs, last, own, h, fun hclosed => absurd hclosed hphase⟩

theorem Course.Completes.of_failure {e : List Act} (h : s.RepliesHold c rs last own) (hacts : ∃ before, s.acts = before ++ e)
    (he : Act.failures e ≠ []) : s.Completes c := by
  refine ⟨rs, last, own, h, fun _ hnone => absurd ?_ he⟩
  obtain ⟨before, hacts⟩ := hacts
  rw [hacts, Act.failures_append] at hnone
  exact (List.append_eq_nil_iff.1 hnone).2

theorem Phase.eq_closed_of_hear {p : Phase} {e : Happening} (h : p.hear e = .closed) : p = .closed := by
  cases p <;> first | rfl | cases h

/-- **What is complete stays complete**, whatever the connection does next. -/
theorem Course.Completes.move (h : s.Completes c) (hmove : Move c s t) : t.Completes c := by
  obtain ⟨rs, last, own, hreplies, hclosed⟩ := h
  obtain ⟨rs', last', own', hnext⟩ := hreplies.move hmove
  cases hmove with
  | hear e => exact ⟨rs, last, own, hreplies.hear e, fun hphase => hclosed (Phase.eq_closed_of_hear hphase)⟩
  | wait => exact hnext.completes fun h => Phase.noConfusion h
  | begin => exact hnext.completes fun h => Phase.noConfusion h
  | sendPart => exact hnext.completes fun h => Phase.noConfusion h
  | sendAll => exact hnext.completes fun h => Phase.noConfusion h
  | interim => exact hnext.completes fun h => Phase.noConfusion h
  | final => exact hnext.completes fun h => Phase.noConfusion h
  | passBody => exact hnext.completes fun h => Phase.noConfusion h
  | done => exact hnext.completes fun h => Phase.noConfusion h
  | answer m g hphase => exact .of_failure hnext ⟨_, rfl⟩ (List.cons_ne_nil _ _)
  | finish hends =>
    cases hends with
    | leave hphase =>
      exact ⟨rs, last, own, hreplies.finish (by simp [Act.IsMute]), fun _ _ => hreplies.answering.eq_none hphase⟩
    | refuse m message hphase => exact .of_failure hnext ⟨_, rfl⟩ (List.cons_ne_nil _ _)
    | giveUp m message hconcerns => exact .of_failure hnext ⟨_, rfl⟩ (List.cons_ne_nil _ _)
    | done m hphase hstanding =>
      obtain ⟨reply, -, -, hend⟩ := hreplies.doneLast hphase hstanding
      exact ⟨_, none, none, hend, fun _ _ => ⟨rfl, rfl⟩⟩

end Moves

/-- **A client is served in full** when its connection is idle, and when it was closed without a failure. -/
theorem served_run (c : Context) (number : Nat) (peer : String) (hs : List (Moment × Happening)) :
    let k := Connection.fresh number peer
    let r := k.run c hs
    r.1.phase = .idle ∨ r.1.phase = .closed ∧ Act.failures r.2 = [] →
      ∃ rs, Served c (Connection.fromClient hs) (fun n => Connection.fromBackend c n .fresh k hs) r.1 r.2 rs := by
  intro k r hend
  obtain ⟨heads, hholds, rs, last, own, hreplies, hclosed⟩ :=
    Connection.run_of_moves (P := fun s => s.RequestsHold c ∧ s.Completes c) c number peer hs
      ⟨Course.requestsHold_fresh c number peer, [], none, none, Course.repliesHold_fresh c number peer, fun _ _ => ⟨rfl, rfl⟩⟩
      fun s t hmove ⟨hrequests, hcompletes⟩ => ⟨hrequests.move hmove, hcompletes.move hmove⟩
  have hnone : last = none ∧ own = none := by
    rcases hend with hidle | ⟨hphase, hfailures⟩
    · exact hreplies.answering.eq_none (.inl hidle)
    · exact hclosed hphase hfailures
  obtain ⟨rfl, rfl⟩ := hnone
  have hfaithful := hreplies.faithful hholds
  refine ⟨rs, by simpa using hfaithful.bytes, hfaithful.exchanges, by simpa using hfaithful.requests, hfaithful.whole⟩

/-- **What stops do to a connection** to which this happens. -/
structure Graceful (c : Context) (number : Nat) (peer : String) (hs : List (Moment × Happening)) : Prop where
  /-- In the course of an exchange, from its head on, a stop does nothing. -/
  spared : ∀ before m after, hs = before ++ (m, .stop) :: after →
    ((Connection.fresh number peer).run c before).1.phase ≠ .idle →
      (Connection.fresh number peer).run c (before ++ [(m, .stop)]) = (Connection.fresh number peer).run c before
  /-- Between exchanges a stop closes the connection, when all that was read is answered in full. -/
  ended : ∀ before m after, hs = before ++ (m, .stop) :: after →
    ((Connection.fresh number peer).run c before).1.phase = .idle →
      ((Connection.fresh number peer).run c hs).1.phase = .closed ∧
      ((Connection.fresh number peer).run c hs).2 = ((Connection.fresh number peer).run c before).2 ++ [.close] ∧
      ∃ rs, Served c (Connection.fromClient before)
        (fun n => Connection.fromBackend c n .fresh (Connection.fresh number peer) before)
        ((Connection.fresh number peer).run c before).1 ((Connection.fresh number peer).run c before).2 rs
  /-- If without the stops nothing goes wrong, then with them the client is served in full by the time the connection is
  closed. -/
  served : Act.failures ((Connection.fresh number peer).run c (calm hs)).2 = [] →
    ((Connection.fresh number peer).run c hs).1.phase = .closed →
      ∃ rs, Served c (Connection.fromClient hs)
        (fun n => Connection.fromBackend c n .fresh (Connection.fresh number peer) hs)
        ((Connection.fresh number peer).run c hs).1 ((Connection.fresh number peer).run c hs).2 rs

theorem graceful_run (c : Context) (number : Nat) (peer : String) (hs : List (Moment × Happening)) :
    Graceful c number peer hs := by
  let k := Connection.fresh number peer
  have hends : ∀ before m after, hs = before ++ (m, .stop) :: after → (k.run c before).1.phase = .idle →
      (k.run c hs).1.phase = .closed ∧ (k.run c hs).2 = (k.run c before).2 ++ [.close] := by
    rintro before m after rfl hidle
    obtain ⟨hclosed, hacts⟩ := Connection.run_of_idle_stop (c := c) hidle m after
    rw [Connection.run_append]
    refine ⟨hclosed, ?_⟩
    show (k.run c before).2 ++ _ = _
    rw [hacts]
  refine ⟨fun before m after _ hphase => ?_, fun before m after hhs hidle => ?_, fun hcalm hclosed => ?_⟩
  · rw [Connection.run_append]
    show Step.after (k.run c before).2 (Step.after ((k.run c before).1.step c m .stop).2 _) = _
    rw [Connection.step_stop_of_not_idle c m hphase]
    simp [Step.after, Connection.run, k]
  · obtain ⟨hclosed, hacts⟩ := hends before m after hhs hidle
    exact ⟨hclosed, hacts, served_run c number peer before (.inl hidle)⟩
  · refine served_run c number peer hs (.inr ⟨hclosed, ?_⟩)
    rcases Connection.run_calm c hs k with heq | ⟨before, m, after, hhs, hidle, heq⟩
    · rwa [heq]
    · have hfront : calm hs = calm before ++ calm after := by simp [hhs, calm]
      rw [hfront, Connection.run_append] at hcalm
      have hbefore : Act.failures ((k.run c (calm before)).2 ++ _) = [] := hcalm
      rw [Act.failures_append] at hbefore
      rw [(hends before m after hhs hidle).2, Act.failures_append, heq, (List.append_eq_nil_iff.1 hbefore).1]
      rfl

/-! ## The connections of a relay -/

namespace Server

variable {c : Context} {s : Server} {i : Nat} {k : Connection}

theorem stopping_step (m : Moment) (h : s.stopping = true) (o : Occurrence) : (s.step c m o).1.stopping = true := by
  cases o with
  | accept peer => simp [step, h]
  | stop => rfl
  | on n e =>
    simp only [step]
    rcases onConnection_cases c m s n e with heq | ⟨j, k', rfl, hk', heq⟩
    · rwa [heq]
    · rwa [heq]

theorem hasStopped_iff : s.hasStopped = true ↔
    s.stopping = true ∧ ∀ (i : Nat) (k : Connection), s.connections[i]? = some k → k.phase = .closed := by
  unfold hasStopped
  rw [Bool.and_eq_true, List.all_eq_true]
  refine and_congr_right fun _ => ⟨fun h i k hk => ?_, fun h k hk => ?_⟩
  · exact of_decide_eq_true (h k (List.mem_of_getElem? hk))
  · obtain ⟨i, hi⟩ := List.getElem?_of_mem hk
    exact decide_eq_true (h i k hi)

/-- A relay that has stopped stays so, and does nothing more. -/
theorem hasStopped_step (m : Moment) (h : s.hasStopped = true) (o : Occurrence) :
    (s.step c m o).1.hasStopped = true ∧ (s.step c m o).2 = [] := by
  obtain ⟨hstopping, hclosed⟩ := hasStopped_iff.1 h
  refine ⟨hasStopped_iff.2 ⟨stopping_step m hstopping o, fun i k hk => ?_⟩, ?_⟩
  · have hlt := (List.getElem?_eq_some_iff.1 hk).1
    rw [length_step_of_stopping c m hstopping] at hlt
    have hold := List.getElem?_eq_getElem hlt
    obtain ⟨⟨k', hk', hphase⟩, -⟩ := step_of_closed (c := c) m hold (hclosed i _ hold) o
    exact Option.some.inj (hk.symm.trans hk') ▸ hphase
  · cases o with
    | accept peer => simp [step, hstopping]
    | stop => rfl
    | on n e =>
      simp only [step]
      rcases onConnection_cases c m s n e with heq | ⟨j, k', rfl, hk', heq⟩
      · rw [heq]
      · rw [heq, (Connection.step_of_closed c m (hclosed j k' hk') e).2]
        rfl

end Server

/-! ## The loop -/

namespace Turn

/-- What happens to the relay in the course of turns. -/
def occurrences (ts : List (Moment × Turn)) : List (Moment × Occurrence) :=
  ts.filterMap fun
    | (m, .happens o) => some (m, o)
    | _ => none

end Turn

namespace Serving

variable {c : Context} {s : Serving}

/-- The loop leaves the relay to what happens to it. -/
theorem run_server (c : Context) (ts : List (Moment × Turn)) (s : Serving) :
    (s.run c ts).1.server = (s.server.run c (Turn.occurrences ts)).1 ∧
      (s.run c ts).2 = (s.server.run c (Turn.occurrences ts)).2 := by
  induction ts generalizing s with
  | nil => exact ⟨rfl, rfl⟩
  | cons mt ts ih =>
    obtain ⟨m, t⟩ := mt
    obtain ⟨hserver, hacts⟩ := ih (s.step c m t).1
    cases t with
    | happens o => exact ⟨hserver, congrArg _ hacts⟩
    | join number =>
      have hsame : (s.step c m (.join number)).1.server = s.server := by
        simp only [step]
        split <;> rfl
      rw [hsame] at hserver hacts
      exact ⟨hserver, hacts⟩
    | finish =>
      have hsame : (s.step c m .finish).1.server = s.server := by
        simp only [step]
        split <;> rfl
      rw [hsame] at hserver hacts
      exact ⟨hserver, hacts⟩

theorem run_append (c : Context) (a b : List (Moment × Turn)) (s : Serving) :
    (s.run c (a ++ b)).1 = ((s.run c a).1.run c b).1 ∧ (s.run c (a ++ b)).2 = (s.run c a).2 ++ ((s.run c a).1.run c b).2 := by
  induction a generalizing s with
  | nil => exact ⟨rfl, rfl⟩
  | cons mt a ih =>
    obtain ⟨m, t⟩ := mt
    obtain ⟨hserver, hacts⟩ := ih (s.step c m t).1
    refine ⟨hserver, ?_⟩
    show (s.step c m t).2 ++ ((s.step c m t).1.run c (a ++ b)).2 = _
    rw [hacts, ← List.append_assoc]
    rfl

/-- The loop waits for each connection that is not closed. -/
structure Tracks (s : Serving) : Prop where
  tasks : ∀ i k, s.server.connections[i]? = some k → k.phase ≠ .closed → i + 1 ∈ s.tasks
  returned : s.returned = true → s.server.hasStopped = true

theorem Tracks.happens (h : s.Tracks) (m : Moment) (o : Occurrence) : (s.step c m (.happens o)).1.Tracks where
  tasks i k hk hopen := by
    have hlt := (List.getElem?_eq_some_iff.1 hk).1
    -- a connection that was there is still waited for, and one that is new has just been given its task
    by_cases hold : i < s.server.connections.length
    · refine List.mem_append_left _ (h.tasks i _ (List.getElem?_eq_getElem hold) fun hclosed => ?_)
      obtain ⟨⟨k', hk', hphase⟩, -⟩ := Server.step_of_closed (c := c) m (List.getElem?_eq_getElem hold) hclosed o
      exact hopen (Option.some.inj (hk'.symm.trans hk) ▸ hphase)
    · refine List.mem_append_right _ (List.mem_range'_1.2 ?_)
      simp only [step] at hlt
      omega
  returned hreturned := (Server.hasStopped_step m (h.returned hreturned) o).1

theorem hasClosed_iff {s : Server} {i : Nat} : s.hasClosed (i + 1) = true ↔
    ∃ k, s.connections[i]? = some k ∧ k.phase = .closed := by
  unfold Server.hasClosed
  cases h : s.connections[i]? <;> simp [h]

theorem Tracks.join (h : s.Tracks) (m : Moment) (number : Nat) : (s.step c m (.join number)).1.Tracks := by
  simp only [step]
  split
  · rename_i hclosed
    refine ⟨fun i k hk hopen => ?_, h.returned⟩
    have hne : i + 1 ≠ number := by
      rintro rfl
      obtain ⟨k', hk', hphase⟩ := hasClosed_iff.1 hclosed
      exact hopen (Option.some.inj (hk'.symm.trans hk) ▸ hphase)
    exact (List.mem_erase_of_ne hne).2 (h.tasks i k hk hopen)
  · exact h

theorem Tracks.finish (h : s.Tracks) (m : Moment) : (s.step c m .finish).1.Tracks := by
  simp only [step]
  split
  · rename_i hdone
    obtain ⟨hstopping, hempty⟩ := Bool.and_eq_true_iff.1 hdone
    refine ⟨h.tasks, fun _ => Server.hasStopped_iff.2 ⟨hstopping, fun i k hk => ?_⟩⟩
    by_contra hopen
    have hmem := h.tasks i k hk hopen
    rw [List.isEmpty_iff.1 hempty] at hmem
    cases hmem
  · exact h

theorem Tracks.step (h : s.Tracks) (m : Moment) (t : Turn) : (s.step c m t).1.Tracks := by
  cases t with
  | happens o => exact h.happens m o
  | join number => exact h.join m number
  | finish => exact h.finish m

theorem Tracks.run (ts : List (Moment × Turn)) {s : Serving} (h : s.Tracks) : (s.run c ts).1.Tracks := by
  induction ts generalizing s with
  | nil => exact h
  | cons mt ts ih =>
    obtain ⟨m, t⟩ := mt
    exact ih (h.step m t)

theorem tracks_fresh : fresh.Tracks :=
  ⟨nofun, nofun⟩

/-- Once the relay is to stop, there are no more connections. -/
theorem length_run_of_stopping (ts : List (Moment × Turn)) {s : Serving} (h : s.server.stopping = true) :
    (s.run c ts).1.server.connections.length = s.server.connections.length := by
  rw [(run_server c ts s).1]
  generalize s.server = server at h
  induction Turn.occurrences ts generalizing server with
  | nil => rfl
  | cons mo os ih =>
    obtain ⟨m, o⟩ := mo
    exact (ih _ (Server.stopping_step m h o)).trans (Server.length_step_of_stopping c m h o)

/-- Once the loop has returned, nothing more is done. -/
theorem run_of_hasStopped (ts : List (Moment × Turn)) {s : Serving} (h : s.server.hasStopped = true) :
    (s.run c ts).2 = [] := by
  rw [(run_server c ts s).2]
  generalize s.server = server at h
  induction Turn.occurrences ts generalizing server with
  | nil => rfl
  | cons mo os ih =>
    obtain ⟨m, o⟩ := mo
    obtain ⟨hstopped, hacts⟩ := Server.hasStopped_step (c := c) m h o
    show (server.step c m o).2 ++ ((server.step c m o).1.run c os).2 = []
    rw [hacts, ih _ hstopped]
    rfl

/-- **A relay that is told to stop ends no exchange early.**  However many connections there are, and however the stop and all
else that happens interleave: to each connection, stops do no more than to close it between two exchanges, with all that was
read answered in full, so that a client for whom nothing else goes wrong receives a whole response for each request that was
read.  No connection is accepted after the stop.  The loop returns only when every connection is closed, and then nothing more
is done. -/
theorem shutdown_graceful (c : Context) (ts : List (Moment × Turn)) :
    let r := fresh.run c ts
    (∀ (i : Nat) (k : Connection), r.1.server.connections[i]? = some k → ∃ peer,
      let hs := Server.heard c (i + 1) .fresh (Turn.occurrences ts)
      (Connection.fresh (i + 1) peer).run c hs = (k, Server.actsOf (i + 1) r.2) ∧ Graceful c (i + 1) peer hs) ∧
    (∀ before m after, ts = before ++ (m, .happens .stop) :: after →
      r.1.server.connections.length = (fresh.run c before).1.server.connections.length) ∧
    (r.1.returned = true → (∀ (i : Nat) (k : Connection), r.1.server.connections[i]? = some k → k.phase = .closed) ∧
      ∀ more, (fresh.run c (ts ++ more)).2 = r.2) := by
  intro r
  obtain ⟨hserver, hacts⟩ := run_server c ts fresh
  refine ⟨fun i k hk => ?_, ?_, fun hreturned => ?_⟩
  · rw [show r.1.server = _ from hserver] at hk
    obtain ⟨peer, hrun⟩ := Server.run_of_none _ (Nat.zero_le i) hk
    rw [← hacts] at hrun
    exact ⟨peer, hrun, graceful_run c (i + 1) peer _⟩
  · rintro before m after rfl
    rw [show r.1 = _ from (run_append c before _ fresh).1]
    exact length_run_of_stopping after (s := ((fresh.run c before).1.step c m (.happens .stop)).1) rfl
  · have hstopped := (tracks_fresh.run (c := c) ts).returned hreturned
    refine ⟨(Server.hasStopped_iff.1 hstopped).2, fun more => ?_⟩
    rw [(run_append c ts more fresh).2, run_of_hasStopped more hstopped, List.append_nil]

end Serving
end Relay
end SearchTelemetry
