import SearchTelemetry.Proofs.Relay.Requests
/-!
# Relay.Replies — each response comes from the backend of its exchange

What the client receives is what the exchanges have read from their backends, one exchange after the other: interim heads, the
final head and its body, byte for byte (`replies_faithful`).  Only the last response may be cut short.  The relay writes bytes
of its own at most once, at the end, and only behind an exchange of which not one byte has gone to the client.
-/
namespace SearchTelemetry
namespace Relay

open Http (IsBlank RequestHead ResponseHead)

/-! ## Responses -/

/-- Interim heads that are read, and what is passed on of them. -/
inductive Interims (max : Nat) (method : String) : List UInt8 → List UInt8 → Prop where
  | nil : Interims max method [] []
  | snoc {read out blank : List UInt8} {head : ResponseHead} : Interims max method read out → IsBlank blank →
      head.Fits max method → head.isInterim → Interims max method (read ++ (blank ++ head.raw)) (out ++ head.raw)

/-- A whole response as it is passed on: interim heads, the final head and its body, out of what has been read. -/
inductive WholeReply (max : Nat) (method : String) (read : Inlet) : List UInt8 → Prop where
  | mk {front out blank body rest : List UInt8} {head : ResponseHead} : Interims max method front out → IsBlank blank →
      head.Fits max method → ¬head.isInterim → head.framing.Delimits read.source.ending body rest →
      read.unread = front ++ (blank ++ (head.raw ++ (body ++ rest))) →
      WholeReply max method read (out ++ (head.raw ++ body))

/-- A response as far as it is passed on. -/
inductive PartReply (max : Nat) (method : String) (read : Inlet) : List UInt8 → Prop where
  /-- The final head has not been passed on. -/
  | heads {front out rest : List UInt8} : Interims max method front out → read.unread = front ++ rest →
      PartReply max method read out
  /-- The final head has been passed on, and this of the body, which is no more than the body. -/
  | body {front out blank part rest : List UInt8} {head : ResponseHead} : Interims max method front out → IsBlank blank →
      head.Fits max method → ¬head.isInterim → read.unread = front ++ (blank ++ (head.raw ++ rest)) → part <+: rest →
      (head.framing ≠ .untilClose → ∀ more body behind ending, rest ++ more = body ++ behind →
        head.framing.Delimits ending body behind → part <+: body) →
      PartReply max method read (out ++ (head.raw ++ part))

/-- The heads of the first requests of a stream, the body of the last one aside. -/
inductive RequestsAt (max : Nat) : List RequestHead → List UInt8 → Prop where
  | nil {bs : List UInt8} : RequestsAt max [] bs
  | last {blank rest : List UInt8} {head : RequestHead} : IsBlank blank → head.Fits max →
      RequestsAt max [head] (blank ++ (head.raw ++ rest))
  | cons {blank body rest : List UInt8} {head : RequestHead} {heads : List RequestHead} : IsBlank blank → head.Fits max →
      (∀ ending rest, head.framing.Delimits ending body rest) → RequestsAt max heads rest →
      RequestsAt max (head :: heads) (blank ++ (head.raw ++ (body ++ rest)))

/-- An exchange: the request, and what has gone to the client. -/
structure Reply where
  request : RequestHead
  out : List UInt8

/-! ## What the exchanges of a connection are to the client -/

/-- **What the client has received**: the responses `rs`, which are whole, then what there is of the `last` one, then an answer
of the relay's `own`. -/
structure Faithful (c : Context) (client : Inlet) (backend : Nat → Inlet) (k : Connection) (acts : List Act) (rs : List Reply)
    (last : Option Reply) (own : Option Gateway) : Prop where
  bytes : Act.clientBytes acts = rs.flatMap Reply.out ++ last.toList.flatMap Reply.out ++ own.toList.flatMap Gateway.answer
  exchanges : k.exchanges = rs.length + last.toList.length
  /-- The exchanges are those of the client's requests, in order. -/
  requests : RequestsAt c.settings.maxHeadBytes ((rs ++ last.toList).map Reply.request) client.unread
  whole : ∀ i r, rs[i]? = some r →
    WholeReply c.settings.maxHeadBytes r.request.parts.method (backend (i + 1)) r.out
  part : ∀ r, last = some r → PartReply c.settings.maxHeadBytes r.request.parts.method (backend k.exchanges) r.out
  /-- The relay answers by itself only where nothing of a response has gone to the client, and does nothing more. -/
  own : ∀ g, own = some g → k.phase = .closed ∧ last.map Reply.out = some []

/-- Of `x`, the last of `n` exchanges, this has gone to the client, and this is the front of what has been read for it that is
consumed. -/
structure Exchanging (n : Nat) (read : Inlet) (x : Exchange) (last : Option Reply) (own : Option Gateway)
    (front out : List UInt8) : Prop where
  number : x.number = n
  last : last = some ⟨x.request, out⟩
  own : own = none
  backend : read.Splits front x.backend

/-- What is known in each phase of the last of `n` exchanges, for which this has been read. -/
def Phase.Answering (c : Context) (n : Nat) (read : Inlet) (last : Option Reply) (own : Option Gateway) : Phase → Prop
  | .idle => last = none ∧ own = none
  | .reading => last = none ∧ own = none
  | .connecting x _ => Exchanging n read x last own [] []
  | .sending x _ _ => Exchanging n read x last own [] []
  | .awaiting x interim => ∃ front out, Exchanging n read x last own front out ∧
      Interims c.settings.maxHeadBytes x.request.parts.method front out ∧ (interim = false → out = [])
  | .returning x r sent => ∃ front out blank part,
      Exchanging n read x last own (front ++ (blank ++ r.raw)) (out ++ (r.raw ++ part)) ∧
      Interims c.settings.maxHeadBytes x.request.parts.method front out ∧ IsBlank blank ∧
      r.Fits c.settings.maxHeadBytes x.request.parts.method ∧ ¬r.isInterim ∧ part.length = sent ∧
      ∀ i : Inlet, x.backend.unread <+: i.unread → part <+: (Transfer.ofInlet c.settings.previewBytes r.framing i).passed
  | .closed =>
    (∀ r, last = some r → PartReply c.settings.maxHeadBytes r.request.parts.method read r.out) ∧
      ∀ g, own = some g → last.map Reply.out = some []

/-- What holds of responses in the course of every run. -/
structure Course.RepliesHold (c : Context) (s : Course) (rs : List Reply) (last : Option Reply) (own : Option Gateway) :
    Prop where
  bytes : Act.clientBytes s.acts = rs.flatMap Reply.out ++ last.toList.flatMap Reply.out ++ own.toList.flatMap Gateway.answer
  exchanges : s.connection.exchanges = rs.length + last.toList.length
  heads : s.heads = (rs ++ last.toList).map Reply.request
  whole : ∀ i r, rs[i]? = some r →
    WholeReply c.settings.maxHeadBytes r.request.parts.method (s.backend (i + 1)) r.out
  unread : ∀ n, s.connection.exchanges < n → s.backend n = .fresh
  answering : s.connection.phase.Answering c s.connection.exchanges (s.backend s.connection.exchanges) last own

section Moves

variable {c : Context} {s : Course} {x : Exchange} {p : Phase} {new : List Act} {rs : List Reply} {last last' : Option Reply}
  {own own' : Option Gateway}

/-! ## Acts towards the client -/

theorem Act.clientBytes_append (a b : List Act) : clientBytes (a ++ b) = clientBytes a ++ clientBytes b :=
  List.flatMap_append

theorem Act.clientBytes_of_isMute {acts : List Act} (h : ∀ a ∈ acts, a.IsMute) : clientBytes acts = [] := by
  refine List.flatMap_eq_nil_iff.2 fun a ha => ?_
  have := h a ha
  cases a <;> first | rfl | cases this

/-! ## What is heard -/

variable {n : Nat} {read : Inlet}

/-- Only the backend of the last exchange is read, and only until it is done. -/
theorem Phase.Answering.listensTo {m : Nat} (h : p.Answering c n read last own) (hm : p.listensTo = some m) :
    m = n ∧ last.toList.length = 1 := by
  cases p with
  | awaiting x interim =>
    obtain ⟨front, out, hx, -⟩ := h
    rw [hx.last]
    cases hm
    exact ⟨hx.number, rfl⟩
  | returning x r sent =>
    obtain ⟨front, out, blank, part, hx, -⟩ := h
    rw [hx.last]
    cases hm
    exact ⟨hx.number, rfl⟩
  | _ => cases hm

theorem Exchanging.hear {front out : List UInt8} (h : Exchanging n read x last own front out) (e : Happening) :
    Exchanging n (e.atBackend read) { x with backend := e.atBackend x.backend } last own front out :=
  ⟨h.number, h.last, h.own, h.backend.atBackend e⟩

theorem Phase.Answering.hear (h : p.Answering c n read last own) (e : Happening) :
    (p.hear e).Answering c n (if p.listensTo = some n then e.atBackend read else read) last own := by
  cases p with
  | awaiting x interim =>
    obtain ⟨front, out, hx, hinterims, hout⟩ := h
    have hlistens : (Phase.awaiting x interim).listensTo = some n := congrArg some hx.number
    rw [if_pos hlistens]
    exact ⟨front, out, hx.hear e, hinterims, hout⟩
  | returning x r sent =>
    obtain ⟨front, out, blank, part, hx, hinterims, hblank, hfits, hfinal, hlength, hpassed⟩ := h
    have hlistens : (Phase.returning x r sent).listensTo = some n := congrArg some hx.number
    rw [if_pos hlistens]
    exact ⟨front, out, blank, part, hx.hear e, hinterims, hblank, hfits, hfinal, hlength,
      fun i hi => hpassed i ((e.unread_atBackend x.backend).trans hi)⟩
  | _ => exact h

theorem Course.RepliesHold.hear (h : s.RepliesHold c rs last own) (e : Happening) : (s.hear e).RepliesHold c rs last own where
  bytes := h.bytes
  exchanges := h.exchanges
  heads := h.heads
  whole i r hr := by
    have hne : s.connection.phase.listensTo ≠ some (i + 1) := fun hn => by
      have hlt : i < rs.length := (List.getElem?_eq_some_iff.1 hr).1
      obtain ⟨hlast, hone⟩ := h.answering.listensTo hn
      have hexchanges := h.exchanges
      omega
    have hsame : (s.hear e).backend (i + 1) = s.backend (i + 1) := if_neg hne
    rw [hsame]
    exact h.whole i r hr
  unread n hlt := by
    have hne : s.connection.phase.listensTo ≠ some n := fun hn => Nat.ne_of_gt hlt (h.answering.listensTo hn).1
    have hsame : (s.hear e).backend n = s.backend n := if_neg hne
    rw [hsame]
    exact h.unread n hlt
  answering := h.answering.hear e

/-! ## What is done -/

theorem Course.RepliesHold.enter (h : s.RepliesHold c rs last own)
    (hrequest : last'.toList.map Reply.request = last.toList.map Reply.request)
    (hbytes : last'.toList.flatMap Reply.out ++ own'.toList.flatMap Gateway.answer =
      last.toList.flatMap Reply.out ++ own.toList.flatMap Gateway.answer ++ Act.clientBytes new)
    (hanswering : p.Answering c s.connection.exchanges (s.backend s.connection.exchanges) last' own') :
    (s.enter p new).RepliesHold c rs last' own' where
  bytes := by
    have hacts : Act.clientBytes (s.enter p new).acts = Act.clientBytes s.acts ++ Act.clientBytes new :=
      Act.clientBytes_append s.acts new
    have hassoc := List.append_assoc (rs.flatMap Reply.out)
    rw [hacts, h.bytes, hassoc, hassoc, hassoc, hbytes]
  exchanges := by
    have hlength := congrArg List.length hrequest
    rw [List.length_map, List.length_map] at hlength
    rw [hlength]
    exact h.exchanges
  heads := by
    rw [List.map_append, hrequest, ← List.map_append]
    exact h.heads
  whole := h.whole
  unread := h.unread
  answering := hanswering

theorem Course.RepliesHold.consume (h : s.RepliesHold c rs last own) (rest : List UInt8) :
    (s.consume rest).RepliesHold c rs last own :=
  ⟨h.bytes, h.exchanges, h.heads, h.whole, h.unread, h.answering⟩

/-- Between exchanges there is none that has not come to its end. -/
theorem Phase.Answering.eq_none (h : p.Answering c n read last own) (hp : p = .idle ∨ p = .reading) :
    last = none ∧ own = none := by
  rcases hp with rfl | rfl
  · exact h
  · exact h

/-- Of an exchange whose request is being sent on, nothing has gone to the client. -/
theorem Phase.Answering.exchanging {sent : Nat} (h : p.Answering c n read last own)
    (hsends : p.Sends x sent) : Exchanging n read x last own [] [] := by
  cases hsends <;> exact h

/-- What has gone to the client is always part of a response. -/
theorem Phase.Answering.part (h : p.Answering c n read last own) {r : Reply} (hr : last = some r) :
    PartReply c.settings.maxHeadBytes r.request.parts.method read r.out := by
  cases p with
  | idle => cases hr.symm.trans h.1
  | reading => cases hr.symm.trans h.1
  | connecting x room =>
    obtain rfl := Option.some.inj (hr.symm.trans h.last)
    exact .heads .nil h.backend.unread
  | sending x sent room =>
    obtain rfl := Option.some.inj (hr.symm.trans h.last)
    exact .heads .nil h.backend.unread
  | awaiting x interim =>
    obtain ⟨front, out, hx, hinterims, -⟩ := h
    obtain rfl := Option.some.inj (hr.symm.trans hx.last)
    exact .heads hinterims hx.backend.unread
  | returning x head sent =>
    obtain ⟨front, out, blank, part, hx, hinterims, hblank, hfits, hfinal, -, hpassed⟩ := h
    obtain rfl := Option.some.inj (hr.symm.trans hx.last)
    have hsplit : read.unread = front ++ (blank ++ (head.raw ++ x.backend.unread)) := by
      rw [hx.backend.unread]
      simp only [List.append_assoc]
    have hpart := hpassed x.backend (List.prefix_refl _)
    refine .body hinterims hblank hfits hfinal hsplit (hpart.trans (Transfer.passed_prefix _ _ _)) ?_
    intro hframing more body behind ending hmore hbody
    exact hpart.trans (Transfer.passed_prefix_of_delimits hframing ⟨more, hmore⟩ hbody)
  | closed => exact h.1 r hr

/-- The relay answers at its end only, and only in place of a response. -/
theorem Phase.Answering.closed_of_own (h : p.Answering c n read last own) {g : Gateway} (hg : own = some g) :
    p = .closed ∧ last.map Reply.out = some [] := by
  cases p with
  | idle => cases hg.symm.trans h.2
  | reading => cases hg.symm.trans h.2
  | connecting x room => cases hg.symm.trans h.own
  | sending x sent room => cases hg.symm.trans h.own
  | awaiting x interim =>
    obtain ⟨front, out, hx, -⟩ := h
    cases hg.symm.trans hx.own
  | returning x r sent =>
    obtain ⟨front, out, blank, part, hx, -⟩ := h
    cases hg.symm.trans hx.own
  | closed => exact ⟨rfl, h.2 g hg⟩

theorem Course.RepliesHold.finish (h : s.RepliesHold c rs last own) (hnew : ∀ a ∈ new, a.IsMute) :
    (s.enter .closed new).RepliesHold c rs last own := by
  refine h.enter rfl ?_ ⟨fun r hr => h.answering.part hr, fun g hg => (h.answering.closed_of_own hg).2⟩
  rw [Act.clientBytes_of_isMute hnew, List.append_nil]

theorem Course.RepliesHold.answer (h : s.RepliesHold c rs last own) (g : Gateway)
    (hphase : (∃ sent, s.connection.phase.Sends x sent) ∨ s.connection.phase = .awaiting x false)
    (hnew : ∀ a ∈ new, a.IsMute) : (s.enter .closed (.toClient g.answer :: new)).RepliesHold c rs last (some g) := by
  have hanswering := h.answering
  have hnothing : own = none ∧ last = some ⟨x.request, []⟩ := by
    rcases hphase with ⟨sent, hsends⟩ | hphase
    · have hx := hanswering.exchanging hsends
      exact ⟨hx.own, hx.last⟩
    · rw [hphase] at hanswering
      obtain ⟨front, out, hx, -, hout⟩ := hanswering
      rw [hout rfl] at hx
      exact ⟨hx.own, hx.last⟩
  obtain ⟨rfl, rfl⟩ := hnothing
  refine h.enter rfl ?_ ⟨fun r hr => h.answering.part hr, fun _ _ => rfl⟩
  have hbytes : Act.clientBytes (.toClient g.answer :: new) = g.answer ++ Act.clientBytes new := rfl
  rw [hbytes, Act.clientBytes_of_isMute hnew]
  simp

theorem Course.RepliesHold.wait (h : s.RepliesHold c rs last own)
    (hphase : s.connection.phase = .idle ∨ s.connection.phase = .reading) : (s.enter .reading []).RepliesHold c rs last own :=
  h.enter rfl (List.append_nil _).symm (h.answering.eq_none hphase)

theorem Course.RepliesHold.begin {rest : List UInt8} {head : RequestHead} (h : s.RepliesHold c rs last own)
    (started : Nat) (hphase : s.connection.phase = .idle ∨ s.connection.phase = .reading) :
    Course.RepliesHold c
      { s with
        connection := { s.connection with
          client := { s.connection.client with unread := rest }
          exchanges := s.connection.exchanges + 1
          phase := .connecting ⟨s.connection.exchanges + 1, head, started, .fresh⟩ none }
        acts := s.acts ++ [.connect (s.connection.exchanges + 1)]
        heads := s.heads ++ [head] } rs (some ⟨head, []⟩) none := by
  obtain ⟨rfl, rfl⟩ := h.answering.eq_none hphase
  have hfresh : s.backend (s.connection.exchanges + 1) = .fresh := h.unread _ (Nat.lt_succ_self _)
  have hacts : Act.clientBytes (s.acts ++ [.connect (s.connection.exchanges + 1)]) = Act.clientBytes s.acts := by
    rw [Act.clientBytes_append]
    exact List.append_nil _
  exact {
    bytes := by
      dsimp only
      rw [hacts, h.bytes]
      simp
    exchanges := by
      have hexchanges := h.exchanges
      simpa using hexchanges
    heads := by
      dsimp only
      rw [h.heads]
      simp
    whole := h.whole
    unread := fun n hn => h.unread n (Nat.lt_trans (Nat.lt_succ_self _) hn)
    answering := ⟨rfl, rfl, rfl, hfresh ▸ .refl _⟩ }

theorem Course.RepliesHold.sendPart {sent sent' : Nat} {room : Option Nat} {bs : List UInt8}
    (h : s.RepliesHold c rs last own) (hsends : s.connection.phase.Sends x sent) :
    (s.enter (.sending x sent' room) [.toBackend x.number bs]).RepliesHold c rs last own :=
  h.enter rfl (List.append_nil _).symm (h.answering.exchanging hsends)

theorem Course.RepliesHold.sendAll {sent : Nat} {bs : List UInt8} {e : RelayEvent} (h : s.RepliesHold c rs last own)
    (hsends : s.connection.phase.Sends x sent) :
    (s.enter (.awaiting x false) [.toBackend x.number bs, .tell e]).RepliesHold c rs last own :=
  h.enter rfl (List.append_nil _).symm ⟨[], [], h.answering.exchanging hsends, .nil, fun _ => rfl⟩

theorem Course.RepliesHold.interim {interim : Bool} {blank rest : List UInt8} {head : ResponseHead}
    (h : s.RepliesHold c rs last own) (hphase : s.connection.phase = .awaiting x interim) (hblank : IsBlank blank)
    (hfits : head.Fits c.settings.maxHeadBytes x.request.parts.method) (hinterim : head.isInterim)
    (hbytes : x.backend.unread = blank ++ (head.raw ++ rest)) :
    ∃ out, last = some ⟨x.request, out⟩ ∧ own = none ∧
      (s.enter (.awaiting { x with backend := { x.backend with unread := rest } } true)
        [.toClient head.raw]).RepliesHold c rs (some ⟨x.request, out ++ head.raw⟩) none := by
  have hanswering := h.answering
  rw [hphase] at hanswering
  obtain ⟨front, out, ⟨hnumber, rfl, rfl, hsplits⟩, hinterims, -⟩ := hanswering
  refine ⟨out, rfl, rfl, h.enter rfl ?_
    ⟨front ++ (blank ++ head.raw), out ++ head.raw, ⟨hnumber, rfl, rfl, ?_⟩, hinterims.snoc hblank hfits hinterim, nofun⟩⟩
  · simp [Act.clientBytes]
  · exact hsplits.consume (hbytes.trans (List.append_assoc _ _ _).symm)

theorem Course.RepliesHold.final {interim : Bool} {blank rest : List UInt8} {head : ResponseHead}
    (h : s.RepliesHold c rs last own) (hphase : s.connection.phase = .awaiting x interim) (hblank : IsBlank blank)
    (hfits : head.Fits c.settings.maxHeadBytes x.request.parts.method) (hfinal : ¬head.isInterim)
    (hbytes : x.backend.unread = blank ++ (head.raw ++ rest)) :
    ∃ out, last = some ⟨x.request, out⟩ ∧ own = none ∧
      (s.enter (.returning { x with backend := { x.backend with unread := rest } } head 0)
        [.toClient head.raw]).RepliesHold c rs (some ⟨x.request, out ++ head.raw⟩) none := by
  have hanswering := h.answering
  rw [hphase] at hanswering
  obtain ⟨front, out, ⟨hnumber, rfl, rfl, hsplits⟩, hinterims, -⟩ := hanswering
  refine ⟨out, rfl, rfl, h.enter rfl ?_
    ⟨front, out, blank, [], ⟨hnumber, by rw [List.append_nil], rfl, ?_⟩, hinterims, hblank, hfits, hfinal, rfl,
      fun i _ => List.nil_prefix⟩⟩
  · simp [Act.clientBytes]
  · exact hsplits.consume (hbytes.trans (List.append_assoc _ _ _).symm)

theorem Course.RepliesHold.passBody {r : ResponseHead} {sent : Nat} (h : s.RepliesHold c rs last own)
    (hphase : s.connection.phase = .returning x r sent) :
    ∃ out, last = some ⟨x.request, out⟩ ∧ own = none ∧
      (s.enter (.returning x r (x.response c r).passed.length)
        [.toClient ((x.response c r).passed.drop sent)]).RepliesHold c rs
          (some ⟨x.request, out ++ (x.response c r).passed.drop sent⟩) none := by
  have hanswering := h.answering
  rw [hphase] at hanswering
  obtain ⟨front, out, blank, part, ⟨hnumber, rfl, rfl, hsplits⟩, hinterims, hblank, hfits, hfinal, rfl, hpassed⟩ := hanswering
  obtain ⟨more, hmore⟩ : part <+: (x.response c r).passed := hpassed x.backend (List.prefix_refl _)
  have hdrop : (x.response c r).passed.drop part.length = more := by rw [← hmore, List.drop_left]
  have hout : out ++ (r.raw ++ part) ++ more = out ++ (r.raw ++ (x.response c r).passed) := by
    rw [← hmore]
    simp only [List.append_assoc]
  rw [hdrop]
  refine ⟨out ++ (r.raw ++ part), rfl, rfl, h.enter rfl ?_
    ⟨front, out, blank, _, ⟨hnumber, by rw [hout], rfl, hsplits⟩, hinterims, hblank, hfits, hfinal, rfl,
      fun i hi => Transfer.passed_mono _ _ hi⟩⟩
  simp [Act.clientBytes]

theorem Course.RepliesHold.done {r : ResponseHead} {rest : List UInt8} {e : RelayEvent} (h : s.RepliesHold c rs last own)
    (hphase : s.connection.phase = .returning x r (x.response c r).passed.length)
    (hstanding : (x.response c r).standing = .whole rest) :
    ∃ reply, last = some reply ∧ own = none ∧ (s.enter .idle [.tell e]).RepliesHold c (rs ++ [reply]) none none := by
  have hanswering := h.answering
  rw [hphase] at hanswering
  obtain ⟨front, out, blank, part, ⟨hnumber, rfl, rfl, hsplits⟩, hinterims, hblank, hfits, hfinal, hlength, hpassed⟩ :=
    hanswering
  have hpart : part = (x.response c r).passed := (hpassed x.backend (List.prefix_refl _)).eq_of_length hlength
  obtain ⟨hbytes, hbody⟩ := Transfer.delimits_of_whole hstanding
  have hending : x.backend.source.ending = (s.backend s.connection.exchanges).source.ending := by
    unfold Inlet.source
    rw [hsplits.ended]
  have hread : (s.backend s.connection.exchanges).unread =
      front ++ (blank ++ (r.raw ++ ((x.response c r).passed ++ rest))) := by
    rw [hsplits.unread, hbytes]
    simp only [List.append_assoc]
    rfl
  rw [hending] at hbody
  have hwhole : WholeReply c.settings.maxHeadBytes x.request.parts.method (s.backend s.connection.exchanges)
      (out ++ (r.raw ++ part)) := hpart ▸ .mk hinterims hblank hfits hfinal hbody hread
  have hexchanges : s.connection.exchanges = rs.length + 1 := h.exchanges
  refine ⟨⟨x.request, out ++ (r.raw ++ part)⟩, rfl, rfl, ?_, ?_, ?_, ?_, h.unread, rfl, rfl⟩
  · have hacts : Act.clientBytes (s.acts ++ [.tell e]) = Act.clientBytes s.acts := by
      rw [Act.clientBytes_append]
      exact List.append_nil _
    show Act.clientBytes (s.acts ++ [.tell e]) = _
    rw [hacts, h.bytes]
    simp
  · show s.connection.exchanges = _
    simpa using hexchanges
  · show s.heads = _
    rw [h.heads]
    simp
  · intro i r' hr
    rcases getElem?_concat_cases hr with hr | ⟨rfl, rfl⟩
    · exact h.whole i r' hr
    · rw [← hexchanges]
      exact hwhole

theorem Course.enter_enter (s : Course) (p q : Phase) (a b : List Act) : (s.enter p a).enter q b = s.enter q (a ++ b) := by
  unfold Course.enter Course.after
  rw [List.append_assoc]

/-- Where an exchange is to be the last, it is brought to its end first, and only then is the connection closed. -/
theorem Course.RepliesHold.doneLast {r : ResponseHead} {rest : List UInt8} {e : RelayEvent} (h : s.RepliesHold c rs last own)
    (hphase : s.connection.phase = .returning x r (x.response c r).passed.length)
    (hstanding : (x.response c r).standing = .whole rest) :
    ∃ reply, last = some reply ∧ own = none ∧
      (s.enter .closed [.tell e, .close]).RepliesHold c (rs ++ [reply]) none none := by
  obtain ⟨reply, hlast, hown, hdone⟩ := h.done (e := e) hphase hstanding
  have hclose : ∀ a ∈ [Act.close], a.IsMute := by simp [Act.IsMute]
  have hend := hdone.finish hclose
  rw [Course.enter_enter] at hend
  exact ⟨reply, hlast, hown, hend⟩

/-- **What holds of responses holds after each move.** -/
theorem Course.RepliesHold.move {t : Course} (h : s.RepliesHold c rs last own) (hmove : Move c s t) :
    ∃ rs' last' own', t.RepliesHold c rs' last' own' := by
  cases hmove with
  | hear e => exact ⟨_, _, _, h.hear e⟩
  | wait hphase => exact ⟨_, _, _, h.wait hphase⟩
  | begin started hphase => exact ⟨_, _, _, h.begin started hphase⟩
  | sendPart room hsends => exact ⟨_, _, _, h.sendPart hsends⟩
  | sendAll m hsends => exact ⟨_, _, _, (h.consume _).sendAll hsends⟩
  | interim hphase hblank hfits hinterim hbytes =>
    obtain ⟨out, -, -, hnext⟩ := h.interim hphase hblank hfits hinterim hbytes
    exact ⟨_, _, _, hnext⟩
  | final hphase hblank hfits hfinal hbytes =>
    obtain ⟨out, -, -, hnext⟩ := h.final hphase hblank hfits hfinal hbytes
    exact ⟨_, _, _, hnext⟩
  | passBody hphase =>
    obtain ⟨out, -, -, hnext⟩ := h.passBody hphase
    exact ⟨_, _, _, hnext⟩
  | done m hphase hstanding =>
    obtain ⟨reply, -, -, hnext⟩ := h.done hphase hstanding
    exact ⟨_, _, _, hnext⟩
  | finish hends => exact ⟨_, _, _, h.finish hends.isMute⟩
  | answer m g hphase => exact ⟨_, _, _, h.answer g hphase (Connection.isMute_answered m _ _ g)⟩

end Moves

/-! ## Runs -/

theorem Course.repliesHold_fresh (c : Context) (number : Nat) (peer : String) :
    (Course.fresh number peer).RepliesHold c [] none none := by
  exact ⟨rfl, rfl, rfl, nofun, fun _ _ => rfl, rfl, rfl⟩

theorem RequestsAt.of_pieces {max : Nat} {ms : List Piece} {heads : List RequestHead} {bs : List UInt8}
    (hms : ∀ m ∈ ms, m.IsGood max) (h : RequestsAt max heads bs) :
    RequestsAt max (ms.map (·.head) ++ heads) (ms.flatMap Piece.bytes ++ bs) := by
  induction ms with
  | nil => exact h
  | cons m ms ih =>
    have hm := hms m List.mem_cons_self
    have hrest := ih fun m' hm' => hms m' (List.mem_cons_of_mem _ hm')
    have hcons := RequestsAt.cons hm.opening.blank hm.opening.head hm.body hrest
    have hbytes : (m :: ms).flatMap Piece.bytes ++ bs =
        m.blank ++ (m.head.raw ++ (m.body ++ (ms.flatMap Piece.bytes ++ bs))) := by
      simp [Piece.bytes, Piece.sent]
    rw [hbytes]
    exact hcons

/-- The exchanges are those of the requests at the front of the client's stream. -/
theorem Isolated.requestsAt {c : Context} {client : Inlet} {k : Connection} {acts : List Act} {ms : List Piece}
    {last : Option Opening} (h : Isolated c client k acts ms last) :
    RequestsAt c.settings.maxHeadBytes (ms.map (·.head) ++ last.toList.map (·.head)) client.unread := by
  rw [h.stream.unread, List.append_assoc]
  refine .of_pieces h.good ?_
  cases last with
  | none => exact .nil
  | some o =>
    have ho := h.begun o rfl
    have hlast : RequestsAt c.settings.maxHeadBytes [o.head] (o.blank ++ (o.head.raw ++ k.client.unread)) :=
      .last ho.blank ho.head
    simpa [Opening.bytes] using hlast

/-- What the client has received is what the exchanges have read, at any time of a run. -/
theorem Course.RepliesHold.faithful {c : Context} {s : Course} {rs : List Reply} {last : Option Reply} {own : Option Gateway}
    (h : s.RepliesHold c rs last own) (hrequests : s.RequestsHold c) :
    Faithful c s.client s.backend s.connection s.acts rs last own := by
  obtain ⟨ms, opening, hiso, -, hheads⟩ := hrequests
  have hat := hiso.requestsAt
  rw [← hheads, h.heads] at hat
  exact ⟨h.bytes, h.exchanges, hat, h.whole, fun _ hr => h.answering.part hr, fun _ hg => h.answering.closed_of_own hg⟩

/-- **The client receives what the backends answer.**  However the client's bytes come and whatever the backends do, the client
receives for each exchange the response that has been read from the backend of this exchange, whole but for the last one, and
behind the last one at most one answer of the relay itself, where it is all that the client receives for the exchange. -/
theorem replies_faithful (c : Context) (number : Nat) (peer : String) (hs : List (Moment × Happening)) :
    let k := Connection.fresh number peer
    let r := k.run c hs
    ∃ rs last own,
      Faithful c (Connection.fromClient hs) (fun n => Connection.fromBackend c n .fresh k hs) r.1 r.2 rs last own ∧
        (r.1.phase = .idle ∨ r.1.phase = .reading → last = none) := by
  intro k r
  obtain ⟨heads, hrequests, rs, last, own, hreplies⟩ :=
    Connection.run_of_moves (P := fun s => s.RequestsHold c ∧ ∃ rs last own, s.RepliesHold c rs last own) c number peer hs
      ⟨Course.requestsHold_fresh c number peer, [], none, none, Course.repliesHold_fresh c number peer⟩
      fun s t hmove ⟨hrequests, rs, last, own, hreplies⟩ => ⟨hrequests.move hmove, hreplies.move hmove⟩
  exact ⟨rs, last, own, hreplies.faithful hrequests, fun hphase => (hreplies.answering.eq_none hphase).1⟩

end Relay
end SearchTelemetry
