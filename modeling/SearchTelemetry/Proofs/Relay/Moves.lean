import Mathlib.Logic.Relation
import SearchTelemetry.Proofs.Http.Heads
import SearchTelemetry.Proofs.Relay.Transfers
import SearchTelemetry.Relay.Connection
/-!
# Relay.Moves — what a connection does, move by move

One step of a connection may pass on several heads and a body.  It is taken apart here into moves of a few kinds (`Move`),
each with what it takes from an inlet and what it puts out; a step is a sequence of moves (`moves_step`), and so is a run
(`moves_run`).  What every move preserves holds in the course of every run.

A `Course` is a connection with all that has come in on its sockets, which the connection itself forgets as it goes on.
-/
namespace SearchTelemetry
namespace Relay

open Http (Framing IsBlank RequestHead ResponseHead)

/-! ## What comes in -/

namespace Happening

/-- What a happening does to the client's inlet. -/
def atClient : Happening → Inlet → Inlet
  | received bs => Inlet.receive bs
  | clientClosed => Inlet.close
  | _ => id

/-- What a happening does to the inlet of a backend that is read. -/
def atBackend : Happening → Inlet → Inlet
  | replied bs => Inlet.receive bs
  | backendClosed => Inlet.close
  | _ => id

/-- What a happening does to the room at a backend that is written to. -/
def atRoom : Happening → Option Nat → Option Nat
  | backendTakes room => fun _ => room
  | _ => id

end Happening

namespace Phase

/-- The exchange whose backend is read. -/
def listensTo : Phase → Option Nat
  | awaiting x _ => some x.number
  | returning x _ _ => some x.number
  | _ => none

/-- The phase after what has happened at the backend is known. -/
def hear (h : Happening) : Phase → Phase
  | connecting x room => connecting x (h.atRoom room)
  | sending x sent room => sending x sent (h.atRoom room)
  | awaiting x interim => awaiting { x with backend := h.atBackend x.backend } interim
  | returning x response sent => returning { x with backend := h.atBackend x.backend } response sent
  | p => p

end Phase

namespace Connection

/-- All that comes from the client in the course of happenings. -/
def fromClient (hs : List (Moment × Happening)) : Inlet :=
  hs.foldl (fun i h => h.2.atClient i) .fresh

/-- All that is read from the backend of an exchange in the course of happenings, behind what has been. -/
def fromBackend (c : Context) (exchange : Nat) : Inlet → Connection → List (Moment × Happening) → Inlet
  | i, _, [] => i
  | i, k, (m, h) :: rest =>
    fromBackend c exchange (if k.phase.listensTo = some exchange then h.atBackend i else i) (k.step c m h).1 rest

/-- The connection after what has happened is known, and before anything is done about it. -/
def hear (h : Happening) (k : Connection) : Connection :=
  { k with client := h.atClient k.client, phase := k.phase.hear h }

end Connection

/-! ## Inlets and what has been taken from them -/

/-- One inlet is another with these bytes taken from its front. -/
structure Inlet.Splits (i : Inlet) (front : List UInt8) (j : Inlet) : Prop where
  unread : i.unread = front ++ j.unread
  ended : i.ended = j.ended

namespace Inlet.Splits

variable {i j : Inlet} {a b rest : List UInt8}

theorem refl (i : Inlet) : i.Splits [] i :=
  ⟨rfl, rfl⟩

theorem receive (h : i.Splits a j) (bs : List UInt8) : (i.receive bs).Splits a (j.receive bs) := by
  unfold Inlet.receive
  rw [h.ended]
  split
  · exact h
  · refine ⟨?_, rfl⟩
    rw [h.unread, List.append_assoc]

theorem close (h : i.Splits a j) : i.close.Splits a j.close :=
  ⟨h.unread, rfl⟩

theorem atClient (h : i.Splits a j) (e : Happening) : (e.atClient i).Splits a (e.atClient j) := by
  cases e with
  | received bs => exact h.receive bs
  | clientClosed => exact h.close
  | _ => exact h

theorem atBackend (h : i.Splits a j) (e : Happening) : (e.atBackend i).Splits a (e.atBackend j) := by
  cases e with
  | replied bs => exact h.receive bs
  | backendClosed => exact h.close
  | _ => exact h

theorem consume (h : i.Splits a j) (hj : j.unread = b ++ rest) : i.Splits (a ++ b) { j with unread := rest } where
  unread := by rw [h.unread, hj, List.append_assoc]
  ended := h.ended

end Inlet.Splits

/-- Nothing is lost of what has come. -/
theorem Inlet.unread_receive (i : Inlet) (bs : List UInt8) : i.unread <+: (i.receive bs).unread := by
  unfold receive
  split
  · exact List.prefix_refl _
  · exact List.prefix_append _ _

theorem Happening.unread_atClient (h : Happening) (i : Inlet) : i.unread <+: (h.atClient i).unread := by
  cases h with
  | received bs => exact i.unread_receive bs
  | _ => exact List.prefix_refl _

theorem Happening.unread_atBackend (h : Happening) (i : Inlet) : i.unread <+: (h.atBackend i).unread := by
  cases h with
  | replied bs => exact i.unread_receive bs
  | _ => exact List.prefix_refl _

/-! ## Courses -/

/-- A connection, what has come in on its sockets, and what it has done. -/
structure Course where
  connection : Connection
  /-- All that has come from the client. -/
  client : Inlet
  /-- All that has been read from the backend of each exchange. -/
  backend : Nat → Inlet
  acts : List Act
  /-- The heads of the requests whose exchanges have begun. -/
  heads : List RequestHead

namespace Course

/-- The course of a connection that has just been accepted. -/
def fresh (number : Nat) (peer : String) : Course :=
  ⟨.fresh number peer, .fresh, fun _ => .fresh, [], []⟩

/-- The course after what has happened is known. -/
def hear (h : Happening) (s : Course) : Course :=
  { s with
    connection := s.connection.hear h
    client := h.atClient s.client
    backend := fun n => if s.connection.phase.listensTo = some n then h.atBackend (s.backend n) else s.backend n }

/-- The course with what a step makes of its connection. -/
def after (step : Step) (s : Course) : Course :=
  { s with connection := step.1, acts := s.acts ++ step.2 }

/-- The course in another phase, once this has been done. -/
def enter (p : Phase) (acts : List Act) (s : Course) : Course :=
  s.after ({ s.connection with phase := p }, acts)

/-- The course with the front of the client's bytes consumed, up to these. -/
def consume (rest : List UInt8) (s : Course) : Course :=
  { s with connection := { s.connection with client := { s.connection.client with unread := rest } } }

end Course

/-- An act with no bytes in it, and without the event of a request. -/
def Act.IsMute : Act → Prop
  | tell (.request ..) => False
  | tell _ => True
  | close => True
  | _ => False

/-- So many bytes of the request of an exchange have gone to its backend. -/
inductive Phase.Sends (x : Exchange) : Phase → Nat → Prop where
  | connecting {room : Option Nat} : Sends x (.connecting x room) 0
  | sending {sent : Nat} {room : Option Nat} : Sends x (.sending x sent room) sent

/-- The body of the request, as far as it has come. -/
def Course.request (c : Context) (x : Exchange) (s : Course) : Transfer :=
  .ofInlet c.settings.previewBytes x.request.framing s.connection.client

/-- What is due to the backend when so many bytes of the request have gone. -/
def Course.due (c : Context) (x : Exchange) (sent : Nat) (s : Course) : List UInt8 :=
  (x.request.raw ++ (s.request c x).passed).drop sent

/-- The body of the response, as far as it has come. -/
def Exchange.response (c : Context) (x : Exchange) (r : ResponseHead) : Transfer :=
  .ofInlet c.settings.previewBytes r.framing x.backend

/-- The phase in which an exchange goes on that can be given up without an answer. -/
inductive Phase.Concerns (x : Exchange) : Phase → Prop where
  | sending {sent : Nat} {room : Option Nat} : Concerns x (.sending x sent room)
  | awaiting {interim : Bool} : Concerns x (.awaiting x interim)
  | returning {r : ResponseHead} {sent : Nat} : Concerns x (.returning x r sent)

/-- What is done where a connection ends without an answer of its own. -/
inductive Course.Ends (c : Context) (s : Course) : List Act → Prop where
  | leave : s.connection.phase = .idle ∨ s.connection.phase = .reading → s.Ends c [.close]
  /-- A head that cannot be read belongs to no exchange. -/
  | refuse (m : Moment) (message : String) : s.connection.phase = .idle ∨ s.connection.phase = .reading →
      s.Ends c [.tell (.failure none m.wall message none), .close]
  | giveUp (m : Moment) (message : String) {x : Exchange} : s.connection.phase.Concerns x →
      s.Ends c [.tell (.failure (some (s.connection.exchangeId x.number)) m.wall message none), .close]
  /-- An exchange is done, and was to be the last. -/
  | done (m : Moment) {x : Exchange} {r : ResponseHead} {rest : List UInt8} :
      s.connection.phase = .returning x r (x.response c r).passed.length → (x.response c r).standing = .whole rest →
      s.Ends c [.tell (s.connection.responseEvent c m x r (x.response c r).tap), .close]

theorem Course.Ends.isMute {c : Context} {s : Course} {acts : List Act} (h : s.Ends c acts) : ∀ a ∈ acts, a.IsMute := by
  cases h <;> simp [Act.IsMute, Connection.responseEvent]

/-- What is done behind an answer of the relay's own. -/
def Connection.answered (m : Moment) (k : Connection) (x : Exchange) (g : Gateway) : List Act :=
  [.tell (.failure (some (k.exchangeId x.number)) m.wall g.message (some g.status.toUInt16)), .close]

theorem Connection.isMute_answered (m : Moment) (k : Connection) (x : Exchange) (g : Gateway) :
    ∀ a ∈ k.answered m x g, a.IsMute := by
  simp [answered, Act.IsMute]

/-- What a connection does at once. -/
inductive Move (c : Context) (s : Course) : Course → Prop where
  /-- Something happens. -/
  | hear (h : Happening) : Move c s (s.hear h)
  /-- It begins to read a head. -/
  | wait : s.connection.phase = .idle ∨ s.connection.phase = .reading → Move c s (s.enter .reading [])
  /-- It begins an exchange with a head that has come. -/
  | begin {blank rest : List UInt8} {head : RequestHead} (started : Nat) :
      s.connection.phase = .idle ∨ s.connection.phase = .reading →
      IsBlank blank → head.Fits c.settings.maxHeadBytes → s.connection.client.unread = blank ++ (head.raw ++ rest) →
      Move c s
        { s with
          connection := { s.connection with
            client := { s.connection.client with unread := rest }
            exchanges := s.connection.exchanges + 1
            phase := .connecting ⟨s.connection.exchanges + 1, head, started, .fresh⟩ none }
          acts := s.acts ++ [.connect (s.connection.exchanges + 1)]
          heads := s.heads ++ [head] }
  /-- It passes on a part of the request. -/
  | sendPart {x : Exchange} {sent : Nat} {bs : List UInt8} (room : Option Nat) :
      s.connection.phase.Sends x sent → bs <+: s.due c x sent →
      (bs = s.due c x sent → ∀ rest, (s.request c x).standing ≠ .whole rest) →
      Move c s (s.enter (.sending x (sent + bs.length) room) [.toBackend x.number bs])
  /-- It passes on the rest of the request. -/
  | sendAll (m : Moment) {x : Exchange} {sent : Nat} {rest : List UInt8} :
      s.connection.phase.Sends x sent → (s.request c x).standing = .whole rest →
      Move c s ((s.consume rest).enter (.awaiting x false)
        [.toBackend x.number (s.due c x sent), .tell (s.connection.requestEvent c m x (s.request c x).tap)])
  /-- It passes on an interim head. -/
  | interim {x : Exchange} {interim : Bool} {blank rest : List UInt8} {head : ResponseHead} :
      s.connection.phase = .awaiting x interim → IsBlank blank →
      head.Fits c.settings.maxHeadBytes x.request.parts.method → head.isInterim →
      x.backend.unread = blank ++ (head.raw ++ rest) →
      Move c s (s.enter (.awaiting { x with backend := { x.backend with unread := rest } } true) [.toClient head.raw])
  /-- It passes on the head of the response. -/
  | final {x : Exchange} {interim : Bool} {blank rest : List UInt8} {head : ResponseHead} :
      s.connection.phase = .awaiting x interim → IsBlank blank →
      head.Fits c.settings.maxHeadBytes x.request.parts.method → ¬head.isInterim →
      x.backend.unread = blank ++ (head.raw ++ rest) →
      Move c s (s.enter (.returning { x with backend := { x.backend with unread := rest } } head 0) [.toClient head.raw])
  /-- It passes on what has come of the body of the response. -/
  | passBody {x : Exchange} {r : ResponseHead} {sent : Nat} :
      s.connection.phase = .returning x r sent →
      Move c s (s.enter (.returning x r (x.response c r).passed.length)
        [.toClient ((x.response c r).passed.drop sent)])
  /-- It is done with an exchange. -/
  | done (m : Moment) {x : Exchange} {r : ResponseHead} {rest : List UInt8} :
      s.connection.phase = .returning x r (x.response c r).passed.length → (x.response c r).standing = .whole rest →
      Move c s (s.enter .idle [.tell (s.connection.responseEvent c m x r (x.response c r).tap)])
  /-- It ends without an answer. -/
  | finish {acts : List Act} : s.Ends c acts → Move c s (s.enter .closed acts)
  /-- It answers by itself, and ends. -/
  | answer (m : Moment) {x : Exchange} (g : Gateway) :
      (∃ sent, s.connection.phase.Sends x sent) ∨ s.connection.phase = .awaiting x false →
      Move c s (s.enter .closed (.toClient g.answer :: s.connection.answered m x g))

/-- One move after the other. -/
abbrev Moves (c : Context) : Course → Course → Prop :=
  Relation.ReflTransGen (Move c)

/-! ## A step is a sequence of moves -/

theorem Step.after_after (a b : List Act) (r : Step) : Step.after a (Step.after b r) = Step.after (a ++ b) r := by
  unfold Step.after
  rw [List.append_assoc]

namespace Course

variable {s : Course} {k : Connection} {p q : Phase}

theorem after_after (s : Course) (a b : Step) : (s.after a).after b = s.after (Step.after a.2 b) := by
  unfold after Step.after
  rw [List.append_assoc]

theorem after_enter (s : Course) (p : Phase) (acts : List Act) (b : Step) :
    (s.enter p acts).after b = s.after (Step.after acts b) :=
  after_after s _ b

theorem enter_eq (hk : s.connection = { k with phase := q }) (p : Phase) (acts : List Act) :
    s.enter p acts = s.after ({ k with phase := p }, acts) := by
  unfold enter
  rw [hk]

theorem connection_enter (hk : s.connection = { k with phase := q }) (p : Phase) (acts : List Act) :
    (s.enter p acts).connection = { k with phase := p } := by
  rw [enter_eq hk]
  rfl

end Course

namespace Connection

variable {c : Context} {m : Moment} {s : Course} {k : Connection} {x : Exchange} {p : Phase}

theorem moves_after {acts : List Act} {b : Step} (h : Move c s (s.enter p acts))
    (hrest : Moves c (s.enter p acts) ((s.enter p acts).after b)) : Moves c s (s.after (Step.after acts b)) := by
  rw [← Course.after_enter s p]
  exact .head h hrest

theorem moves_nil (hk : s.connection = k) : Moves c s (s.after (k, [])) := by
  have heq : s.after (k, []) = s := by
    unfold Course.after
    rw [List.append_nil, ← hk]
  rw [heq]

theorem moves_finish {acts : List Act} (hk : s.connection = { k with phase := p }) (hacts : s.Ends c (acts ++ [.close])) :
    Moves c s (s.after (k.finish acts)) := by
  have heq : s.after (k.finish acts) = s.enter .closed (acts ++ [.close]) := (Course.enter_eq hk _ _).symm
  rw [heq]
  exact .single (.finish hacts)

theorem moves_quit (hk : s.connection = { k with phase := p }) (hp : p = .idle ∨ p = .reading) :
    Moves c s (s.after (k.finish [])) := by
  refine moves_finish hk (.leave ?_)
  rw [hk]
  exact hp

theorem moves_refuse (hk : s.connection = { k with phase := p }) (hp : p = .idle ∨ p = .reading) (message : String) :
    Moves c s (s.after (k.fail m none message)) := by
  refine moves_finish hk (.refuse m message ?_)
  rw [hk]
  exact hp

theorem moves_fail (hk : s.connection = { k with phase := p }) (hp : p.Concerns x) (message : String) :
    Moves c s (s.after (k.fail m (some x.number) message)) := by
  have hconcerns : s.connection.phase.Concerns x := by
    rw [hk]
    exact hp
  have hid : k.exchangeId x.number = s.connection.exchangeId x.number := by
    rw [hk]
    rfl
  unfold fail
  rw [Option.map_some, hid]
  exact moves_finish hk (.giveUp m message hconcerns)

theorem moves_answer (hk : s.connection = { k with phase := p })
    (hp : (∃ sent, p.Sends x sent) ∨ p = .awaiting x false) (g : Gateway) :
    Moves c s (s.after (k.answer m x g)) := by
  have hphase : s.connection.phase = p := by rw [hk]
  have hanswered : k.answered m x g = s.connection.answered m x g := by
    rw [hk]
    rfl
  have heq : s.after (k.answer m x g) = s.enter .closed (.toClient g.answer :: k.answered m x g) :=
    (Course.enter_eq hk _ _).symm
  rw [heq, hanswered]
  exact .single (.answer m g (hphase ▸ hp))

theorem moves_giveUp {interim : Bool} (hk : s.connection = { k with phase := .awaiting x interim }) (g : Gateway) :
    Moves c s (s.after (k.giveUp m x interim g)) := by
  unfold giveUp
  cases interim with
  | true => exact moves_fail hk .awaiting g.message
  | false => exact moves_answer hk (.inr rfl) g

theorem moves_passResponse {r : ResponseHead} {sent : Nat}
    (hk : s.connection = { k with phase := .returning x r sent }) :
    Moves c s (s.after (k.passResponse c m x r sent)) := by
  have hphase : s.connection.phase = .returning x r sent := by rw [hk]
  let t := x.response c r
  have hpass : Move c s (s.enter (.returning x r t.passed.length) [.toClient (t.passed.drop sent)]) := .passBody hphase
  have hk' := Course.connection_enter hk (.returning x r t.passed.length) [.toClient (t.passed.drop sent)]
  refine moves_after hpass ?_
  split
  · exact moves_nil hk'
  · rename_i fault hstanding
    exact moves_fail hk' .returning _
  · rename_i rest hstanding
    have hends : (s.enter (.returning x r t.passed.length) [.toClient (t.passed.drop sent)]).Ends c _ :=
      .done m (congrArg Connection.phase hk') hstanding
    rw [hk'] at hends
    dsimp only
    split
    · exact moves_finish hk' hends
    · have hdone : Move c (s.enter (.returning x r t.passed.length) [.toClient (t.passed.drop sent)]) _ :=
        .done m (congrArg Connection.phase hk') hstanding
      rw [Course.enter_eq hk', hk'] at hdone
      exact .single hdone

theorem moves_await {interim : Bool} (hk : s.connection = { k with phase := .awaiting x interim }) :
    Moves c s (s.after (k.await c m x interim)) := by
  fun_induction await c m k x interim generalizing s with
  | case1 x interim head rest hread x' =>
    rename_i ih
    have hphase : s.connection.phase = .awaiting x interim := by rw [hk]
    obtain ⟨hfits, blank, hblank, hs, -⟩ := ResponseHead.read_message hread
    rw [Inlet.bytes_source] at hs
    split
    · rename_i hinterim
      exact moves_after (.interim hphase hblank hfits hinterim hs) (ih (Course.connection_enter hk _ _))
    · rename_i hfinal
      exact moves_after (.final hphase hblank hfits hfinal hs) (moves_passResponse (Course.connection_enter hk _ _))
  | case2 x interim fault hread => exact moves_giveUp hk _
  | case3 x interim hread => exact moves_nil hk
  | case4 x interim hread => exact moves_nil hk

theorem within_prefix (room : Option Nat) (bs : List UInt8) : within room bs <+: bs := by
  unfold within
  split
  · exact List.prefix_refl _
  · exact List.take_prefix _ _

theorem moves_passRequest {sent : Nat} {room : Option Nat} (hk : s.connection = { k with phase := p })
    (hp : p.Sends x sent) : Moves c s (s.after (k.passRequest c m x sent room)) := by
  have hphase : s.connection.phase.Sends x sent := by
    rw [hk]
    exact hp
  have hrequest : .ofInlet c.settings.previewBytes x.request.framing k.client = s.request c x := by
    unfold Course.request
    rw [hk]
  have hdue : (x.request.raw ++ (s.request c x).passed).drop sent = s.due c x sent := rfl
  have htaken := within_prefix room (s.due c x sent)
  unfold passRequest
  rw [hrequest]
  dsimp only
  rw [hdue]
  by_cases hpart : (within room (s.due c x sent)).length < (s.due c x sent).length
  · rw [if_pos hpart]
    have hmove : Move c s _ := .sendPart (room.map (· - (within room (s.due c x sent)).length)) hphase htaken
      fun heq => absurd (congrArg List.length heq) (Nat.ne_of_lt hpart)
    exact moves_after hmove (moves_nil (Course.connection_enter hk _ _))
  · have hall := htaken.eq_of_length (Nat.le_antisymm htaken.length_le (Nat.le_of_not_lt hpart))
    rw [if_neg hpart, hall]
    cases hstanding : (s.request c x).standing with
    | waiting =>
      have hshort : ∀ rest, (s.request c x).standing ≠ .whole rest := fun rest h => by cases hstanding.symm.trans h
      exact moves_after (.sendPart _ hphase (List.prefix_refl _) fun _ => hshort)
        (moves_nil (Course.connection_enter hk _ _))
    | failed fault =>
      have hshort : ∀ rest, (s.request c x).standing ≠ .whole rest := fun rest h => by cases hstanding.symm.trans h
      exact moves_after (.sendPart none hphase (List.prefix_refl _) fun _ => hshort)
        (moves_fail (Course.connection_enter hk _ _) .sending _)
    | whole rest =>
      have hmove : Move c s _ := .sendAll m hphase hstanding
      have hk' : (s.consume rest).connection =
          { { k with client := { k.client with unread := rest } } with phase := p } := by
        unfold Course.consume
        rw [hk]
      have hevent : k.requestEvent c m x (s.request c x).tap = s.connection.requestEvent c m x (s.request c x).tap := by
        unfold requestEvent exchangeId
        rw [hk]
      dsimp only
      rw [Step.after_after, hevent]
      have hmoves := moves_await (c := c) (m := m) (Course.connection_enter hk' (.awaiting x false)
        [.toBackend x.number (s.due c x sent), .tell (s.connection.requestEvent c m x (s.request c x).tap)])
      rw [Course.after_enter] at hmoves
      exact .head hmove hmoves

theorem moves_read (hk : s.connection = k) (hp : k.phase = .idle ∨ k.phase = .reading) :
    ∃ heads, Moves c s { s.after (k.read c m) with heads } := by
  unfold read
  subst hk
  split
  · rename_i head rest hread
    obtain ⟨hfits, blank, hblank, hs, -⟩ := RequestHead.read_message hread
    rw [Inlet.bytes_source] at hs
    exact ⟨_, .single (.begin m.ticks hp hblank hfits hs)⟩
  · exact ⟨_, moves_quit rfl hp⟩
  · have hwait : Move c s (s.enter .reading []) := .wait hp
    exact ⟨_, .single hwait⟩
  · exact ⟨_, moves_refuse rfl hp _⟩

theorem eq_withPhase (hk : s.connection = k) (hp : k.phase = p) : s.connection = { k with phase := p } := by
  rw [hk, ← hp]

theorem moves_onClient (hk : s.connection = k) : ∃ heads, Moves c s { s.after (k.onClient c m) with heads } := by
  unfold onClient
  split
  · rename_i hphase
    exact moves_read hk (.inr hphase)
  · rename_i x sent room hphase
    exact ⟨_, moves_passRequest (eq_withPhase hk hphase) .sending⟩
  · exact ⟨_, moves_nil hk⟩

theorem moves_leave (hk : s.connection = k) : Moves c s (s.after (k.leave m)) := by
  unfold leave
  split
  · rename_i hphase
    exact moves_quit (eq_withPhase hk hphase) (.inl rfl)
  · rename_i x interim hphase
    exact moves_fail (eq_withPhase hk hphase) .awaiting _
  · rename_i x r sent hphase
    exact moves_fail (eq_withPhase hk hphase) .returning _
  · exact moves_nil hk

theorem moves_look (hk : s.connection = k) : ∃ heads, Moves c s { s.after (k.look c m) with heads } := by
  unfold look
  split
  · exact ⟨_, moves_leave hk⟩
  · split
    · rename_i hphase
      split
      · exact ⟨_, moves_nil hk⟩
      · exact moves_read hk (.inl hphase)
    · exact ⟨_, moves_nil hk⟩

theorem moves_loseClient (hk : s.connection = k) (reason : String) : Moves c s (s.after (k.loseClient m reason)) := by
  unfold loseClient
  split
  · rename_i hphase
    exact moves_refuse (eq_withPhase hk hphase) (.inr rfl) _
  · rename_i x sent room hphase
    exact moves_fail (eq_withPhase hk hphase) .sending _
  · split
    · exact moves_leave hk
    · exact moves_nil hk

theorem moves_loseBackend (hk : s.connection = k) (reason : String) : Moves c s (s.after (k.loseBackend c m reason)) := by
  unfold loseBackend
  split
  · rename_i x sent room hphase
    exact moves_answer (eq_withPhase hk hphase) (.inl ⟨_, .sending⟩) _
  · rename_i x interim hphase
    exact moves_giveUp (eq_withPhase hk hphase) _
  · rename_i x r sent hphase
    exact moves_fail (eq_withPhase hk hphase) .returning _
  · exact moves_nil hk

/-- The room at a backend that is written to is known before it is made use of. -/
theorem moves_onRoom {room : Option Nat} (hk : s.connection = k.hear (.backendTakes room)) :
    Moves c s (s.after (k.onRoom c m room)) := by
  unfold hear at hk
  unfold onRoom
  split
  · rename_i x before hphase
    rw [hphase] at hk
    exact moves_nil hk
  · rename_i x sent before hphase
    rw [hphase] at hk
    exact moves_passRequest hk .sending
  · rename_i hconnecting hsending
    have hphase : k.phase.hear (.backendTakes room) = k.phase := by
      cases hp : k.phase with
      | connecting x before => exact absurd hp (hconnecting x before)
      | sending x sent before => exact absurd hp (hsending x sent before)
      | _ => rfl
    rw [hphase] at hk
    exact moves_nil hk

/-- What is heard from a backend is acted on. -/
theorem moves_onBackend {h : Happening} (hc : h.atClient = id) (hr : h.atRoom = id) (hk : s.connection = k.hear h) :
    Moves c s (s.after (k.onBackend c m h.atBackend)) := by
  unfold hear at hk
  rw [hc] at hk
  unfold onBackend
  split
  · rename_i x interim hphase
    rw [hphase] at hk
    exact moves_await hk
  · rename_i x r sent hphase
    rw [hphase] at hk
    exact moves_passResponse hk
  · rename_i hawaiting hreturning
    have hphase : k.phase.hear h = k.phase := by
      cases hp : k.phase with
      | awaiting x interim => exact absurd hp (hawaiting x interim)
      | returning x r sent => exact absurd hp (hreturning x r sent)
      | connecting x room => exact congrArg (Phase.connecting x) (congrFun hr room)
      | sending x sent room => exact congrArg (Phase.sending x sent) (congrFun hr room)
      | _ => rfl
    rw [hphase] at hk
    exact moves_nil hk

theorem hear_phase {h : Happening} (hb : h.atBackend = id) (hr : h.atRoom = id) (p : Phase) : p.hear h = p := by
  cases p <;> simp [Phase.hear, hb, hr]

theorem hear_eq_self {h : Happening} (hc : h.atClient = id) (hb : h.atBackend = id) (hr : h.atRoom = id)
    (k : Connection) : k.hear h = k := by
  unfold hear
  rw [hc, hear_phase hb hr]
  rfl

/-- **A step is a sequence of moves**, the first of which lets in what has happened. -/
theorem moves_step (c : Context) (m : Moment) (h : Happening) (s : Course) :
    ∃ heads, Moves c s { (s.hear h).after (s.connection.step c m h) with heads } := by
  let k := s.connection
  suffices hrest : ∃ heads, Moves c (s.hear h) { (s.hear h).after (k.step c m h) with heads } by
    obtain ⟨heads, hrest⟩ := hrest
    exact ⟨heads, .head (.hear h) hrest⟩
  have hk : (s.hear h).connection = k.hear h := rfl
  cases h with
  | received bs =>
    have hhear : k.hear (.received bs) = { k with client := k.client.receive bs } := by
      unfold hear
      rw [hear_phase rfl rfl]
      rfl
    exact moves_onClient (hk.trans hhear)
  | clientClosed =>
    have hhear : k.hear .clientClosed = { k with client := k.client.close } := by
      unfold hear
      rw [hear_phase rfl rfl]
      rfl
    exact moves_onClient (hk.trans hhear)
  | replied bs => exact ⟨_, moves_onBackend rfl rfl hk⟩
  | backendClosed => exact ⟨_, moves_onBackend rfl rfl hk⟩
  | backendTakes room => exact ⟨_, moves_onRoom hk⟩
  | look => exact moves_look (hk.trans (hear_eq_self rfl rfl rfl k))
  | clientBroken reason => exact ⟨_, moves_loseClient (hk.trans (hear_eq_self rfl rfl rfl k)) reason⟩
  | backendBroken reason => exact ⟨_, moves_loseBackend (hk.trans (hear_eq_self rfl rfl rfl k)) reason⟩
  | stop =>
    rw [hear_eq_self rfl rfl rfl k] at hk
    unfold step
    dsimp only
    split
    · rename_i hphase
      exact ⟨_, moves_quit (eq_withPhase hk hphase) (.inl rfl)⟩
    · exact ⟨_, moves_nil hk⟩
  | connected =>
    rw [hear_eq_self rfl rfl rfl k] at hk
    unfold step
    dsimp only
    split
    · rename_i x room hphase
      exact ⟨_, moves_passRequest (eq_withPhase hk hphase) .connecting⟩
    · exact ⟨_, moves_nil hk⟩
  | notConnected reason =>
    rw [hear_eq_self rfl rfl rfl k] at hk
    unfold step
    dsimp only
    split
    · rename_i x room hphase
      exact ⟨_, moves_answer (eq_withPhase hk hphase) (.inl ⟨_, .connecting⟩) _⟩
    · exact ⟨_, moves_nil hk⟩
  | connectTimeout =>
    rw [hear_eq_self rfl rfl rfl k] at hk
    unfold step
    dsimp only
    split
    · rename_i x room hphase
      exact ⟨_, moves_answer (eq_withPhase hk hphase) (.inl ⟨_, .connecting⟩) _⟩
    · exact ⟨_, moves_nil hk⟩
  | deadline =>
    rw [hear_eq_self rfl rfl rfl k] at hk
    unfold step
    dsimp only
    split
    · rename_i x sent room hphase
      exact ⟨_, moves_answer (eq_withPhase hk hphase) (.inl ⟨_, .sending⟩) _⟩
    · rename_i x interim hphase
      exact ⟨_, moves_giveUp (eq_withPhase hk hphase) _⟩
    · exact ⟨_, moves_nil hk⟩
  | pause =>
    rw [hear_eq_self rfl rfl rfl k] at hk
    unfold step
    dsimp only
    split
    · rename_i x sent room hphase
      exact ⟨_, moves_fail (eq_withPhase hk hphase) .sending _⟩
    · rename_i x r sent hphase
      exact ⟨_, moves_fail (eq_withPhase hk hphase) .returning _⟩
    · exact ⟨_, moves_nil hk⟩

/-! ## A run is a sequence of moves -/

/-- **A run is a sequence of moves.** -/
theorem moves_run (c : Context) (hs : List (Moment × Happening)) (s : Course) :
    ∃ heads, Moves c s
      { connection := (s.connection.run c hs).1
        client := hs.foldl (fun i h => h.2.atClient i) s.client
        backend := fun n => fromBackend c n (s.backend n) s.connection hs
        acts := s.acts ++ (s.connection.run c hs).2
        heads := heads } := by
  induction hs generalizing s with
  | nil =>
    refine ⟨s.heads, ?_⟩
    have heq : s.acts ++ [] = s.acts := List.append_nil _
    show Moves c s ⟨s.connection, s.client, s.backend, s.acts ++ [], s.heads⟩
    rw [heq]
  | cons mh rest ih =>
    obtain ⟨m, h⟩ := mh
    obtain ⟨heads, hstep⟩ := moves_step c m h s
    obtain ⟨heads', hrest⟩ := ih { (s.hear h).after (s.connection.step c m h) with heads }
    refine ⟨heads', hstep.trans ?_⟩
    have hacts : s.acts ++ (s.connection.run c ((m, h) :: rest)).2 =
        s.acts ++ (s.connection.step c m h).2 ++ ((s.connection.step c m h).1.run c rest).2 :=
      (List.append_assoc _ _ _).symm
    rw [hacts]
    exact hrest

/-- What the moves of a connection preserve holds in the course of its runs. -/
theorem run_of_moves {P : Course → Prop} (c : Context) (number : Nat) (peer : String) (hs : List (Moment × Happening))
    (hfresh : P (.fresh number peer)) (hmove : ∀ s t, Move c s t → P s → P t) :
    ∃ heads, P
      { connection := ((fresh number peer).run c hs).1
        client := fromClient hs
        backend := fun n => fromBackend c n .fresh (fresh number peer) hs
        acts := ((fresh number peer).run c hs).2
        heads := heads } := by
  have hmoves : ∀ t, Moves c (.fresh number peer) t → P t := fun t ht => by
    induction ht with
    | refl => exact hfresh
    | tail _ hlast ih => exact hmove _ _ hlast ih
  obtain ⟨heads, hrun⟩ := moves_run c hs (.fresh number peer)
  exact ⟨heads, hmoves _ hrun⟩

end Connection
end Relay
end SearchTelemetry
