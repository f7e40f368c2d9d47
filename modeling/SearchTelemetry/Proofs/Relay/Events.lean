import Mathlib.Data.List.Nodup
import SearchTelemetry.Proofs.Relay.Connections
import SearchTelemetry.Proofs.Relay.Replies
/-!
# Relay.Events — what a relay tells is what it does

The events of a connection are a request and a response for each exchange that was passed on whole, in order and numbered
from one; then there may be the request of one more exchange, and at the end one failure (`Narrated`).  They tell of the heads
and bodies that went through, which are those of the client's requests and of the backends' responses (`Faithful`), and a
failure has a status just if the relay answered by itself.  This is so at any time of any run of a relay with any number of
connections, and a connection that has told of a failure does nothing more (`events_narrated`).
-/
namespace SearchTelemetry
namespace Relay

open Http (IsBlank RequestHead ResponseHead)

/-! ## Exchanges that are told -/

namespace Connection

/-- The event of the request of exchange `n`, whose body is this. -/
def tellsRequest (c : Context) (k : Connection) (n : Nat) (m : Moment) (request : RequestHead) (body : List UInt8) :
    RelayEvent :=
  .request (k.exchangeId n) m.wall k.peer request.parts.method request.parts.path (Preview.head request.raw)
    body.length.toUInt64 (Preview.body (body.take c.settings.previewBytes) body.length c.settings.previewBytes)

/-- The event of the response of exchange `n`, whose body is this. -/
def tellsResponse (c : Context) (k : Connection) (n started : Nat) (m : Moment) (response : ResponseHead)
    (body : List UInt8) : RelayEvent :=
  .response (k.exchangeId n) m.wall response.parts.status.toUInt16 (Preview.head response.raw) body.length.toUInt64
    (Preview.body (body.take c.settings.previewBytes) body.length c.settings.previewBytes) (m.since started)

end Connection

/-- An exchange that has been told in full. -/
structure Told where
  request : RequestHead
  /-- The body of the request, and when it had been sent on. -/
  body : List UInt8
  sentAt : Moment
  interims : List ResponseHead
  response : ResponseHead
  /-- The body of the response, and when it had been passed on. -/
  reply : List UInt8
  started : Nat
  returnedAt : Moment

/-- An exchange that has not come to its end, or to a bad one. -/
structure Begun where
  request : RequestHead
  /-- The body of the request once it is told, and when it had been sent on. -/
  told : Option (Moment × List UInt8)
  /-- The heads that have gone to the client, and what has gone of a body behind them. -/
  heads : List ResponseHead
  part : List UInt8

namespace Told

def out (t : Told) : List UInt8 :=
  t.interims.flatMap (·.raw) ++ (t.response.raw ++ t.reply)

/-- What of it the client sees. -/
def toReply (t : Told) : Reply :=
  ⟨t.request, t.out⟩

/-- The two events of the exchange, if its number is `n`. -/
def events (c : Context) (k : Connection) (n : Nat) (t : Told) : List RelayEvent :=
  [k.tellsRequest c n t.sentAt t.request t.body, k.tellsResponse c n t.started t.returnedAt t.response t.reply]

/-- The heads are such as can be read, and behind those of the request and of the response there is just the body that each of
them announces. -/
structure IsGood (c : Context) (t : Told) : Prop where
  request : t.request.Fits c.settings.maxHeadBytes
  body : ∀ ending rest, t.request.framing.Delimits ending t.body rest
  interims : ∀ h ∈ t.interims, h.Fits c.settings.maxHeadBytes t.request.parts.method ∧ h.isInterim
  response : t.response.Fits c.settings.maxHeadBytes t.request.parts.method ∧ ¬t.response.isInterim
  reply : ∃ ending rest, t.response.framing.Delimits ending t.reply rest

/-- The events of exchanges, which are numbered from one. -/
def narrate (c : Context) (k : Connection) (ts : List Told) : List RelayEvent :=
  ts.zipIdx.flatMap fun p => p.1.events c k (p.2 + 1)

theorem narrate_concat (c : Context) (k : Connection) (ts : List Told) (t : Told) :
    narrate c k (ts ++ [t]) = narrate c k ts ++ t.events c k (ts.length + 1) := by
  simp [narrate, List.zipIdx_append]

end Told

namespace Begun

def out (b : Begun) : List UInt8 :=
  b.heads.flatMap (·.raw) ++ b.part

/-- What of it the client sees. -/
def toReply (b : Begun) : Reply :=
  ⟨b.request, b.out⟩

/-- The event of the request once it is told, if the number of the exchange is `n`. -/
def events (c : Context) (k : Connection) (n : Nat) (b : Begun) : List RelayEvent :=
  b.told.toList.map fun p => k.tellsRequest c n p.1 b.request p.2

/-- The request is told with the body that its head announces.  Nothing goes to the client before, and then heads of responses
go before anything else. -/
structure IsGood (c : Context) (b : Begun) : Prop where
  request : b.request.Fits c.settings.maxHeadBytes
  body : ∀ p, b.told = some p → ∀ ending rest, b.request.framing.Delimits ending p.2 rest
  untold : b.told = none → b.heads = []
  headless : b.heads = [] → b.part = []
  heads : ∀ h ∈ b.heads, h.Fits c.settings.maxHeadBytes b.request.parts.method

end Begun

theorem Act.events_append (a b : List Act) : events (a ++ b) = events a ++ events b :=
  List.filterMap_append

/-- How a connection failed: when, and why. -/
structure Failing where
  moment : Moment
  message : String

/-- The event of a failure: of the `last` exchange, if there is one, and under the status of the relay's `own` answer. -/
def Failing.event (k : Connection) (n : Nat) (last : Option Begun) (own : Option Gateway) (f : Failing) : RelayEvent :=
  .failure (last.map fun _ => k.exchangeId n) f.moment.wall f.message (own.map fun g => g.status.toUInt16)

/-- **What a connection has told.**  The exchanges `ts` are told in full.  One more, the `last`, may have begun; the connection
may have answered it by its `own`, and may have ended in a failure. -/
structure Narrated (c : Context) (k : Connection) (acts : List Act) (ts : List Told) (last : Option Begun)
    (own : Option Gateway) (ended : Option Failing) : Prop where
  events : Act.events acts = Told.narrate c k ts ++ last.toList.flatMap (·.events c k (ts.length + 1)) ++
    ended.toList.map (·.event k (ts.length + 1) last own)
  /-- A request that is told has gone to its backend, with a body of the size that is told, and nothing else has. -/
  sent : ∀ i t, ts[i]? = some t → Act.backendBytes (i + 1) acts = t.request.raw ++ t.body
  sentLast : ∀ b p, last = some b → b.told = some p →
    Act.backendBytes (ts.length + 1) acts = b.request.raw ++ p.2
  good : ∀ t ∈ ts, t.IsGood c
  begun : ∀ b, last = some b → b.IsGood c
  /-- Where the relay answers in place of a response, it tells of it as a failure. -/
  own : ∀ g, own = some g → ended.map Failing.message = some g.message

namespace Narrated

variable {c : Context} {k : Connection} {acts new : List Act} {ts : List Told} {last last' : Option Begun}
  {own own' : Option Gateway} {ended ended' : Option Failing}

/-- More of the last exchange. -/
theorem extend (h : Narrated c k acts ts last own ended)
    (hevents : last'.toList.flatMap (·.events c k (ts.length + 1)) ++
        ended'.toList.map (·.event k (ts.length + 1) last' own') =
      last.toList.flatMap (·.events c k (ts.length + 1)) ++ ended.toList.map (·.event k (ts.length + 1) last own) ++
        Act.events new)
    (hother : ∀ n ≤ ts.length, Act.backendBytes n new = [])
    (hsent : ∀ b p, last' = some b → b.told = some p →
      Act.backendBytes (ts.length + 1) (acts ++ new) = b.request.raw ++ p.2)
    (hbegun : ∀ b, last' = some b → b.IsGood c)
    (hown : ∀ g, own' = some g → ended'.map Failing.message = some g.message) :
    Narrated c k (acts ++ new) ts last' own' ended' where
  events := by
    rw [Act.events_append, h.events, List.append_assoc, List.append_assoc, ← List.append_assoc (last.toList.flatMap _),
      ← hevents, List.append_assoc]
  sent i t ht := by
    have hlt : i < ts.length := (List.getElem?_eq_some_iff.1 ht).1
    rw [Act.backendBytes_append, hother (i + 1) hlt, List.append_nil]
    exact h.sent i t ht
  sentLast := hsent
  good := h.good
  begun := hbegun
  own := hown

/-- What has gone of a request that is told is not changed by acts that send its backend nothing. -/
theorem sentLast_append (h : Narrated c k acts ts last own ended) (hnew : Act.backendBytes (ts.length + 1) new = [])
    {b : Begun} {p : Moment × List UInt8} (hb : last = some b) (hp : b.told = some p) :
    Act.backendBytes (ts.length + 1) (acts ++ new) = b.request.raw ++ p.2 := by
  rw [Act.backendBytes_append, hnew, List.append_nil]
  exact h.sentLast b p hb hp

/-- The last exchange comes to its end. -/
theorem finish {b : Begun} {t : Told} (h : Narrated c k acts ts (some b) none none) {e : RelayEvent}
    (hevents : Act.events new = [e]) (htold : b.events c k (ts.length + 1) ++ [e] = t.events c k (ts.length + 1))
    (hother : ∀ n, Act.backendBytes n new = [])
    (hsent : b.request = t.request ∧ ∃ m, b.told = some (m, t.body)) (hgood : t.IsGood c) :
    Narrated c k (acts ++ new) (ts ++ [t]) none none none where
  events := by
    rw [Act.events_append, h.events, Told.narrate_concat, ← htold, hevents]
    simp
  sent i u hu := by
    rw [Act.backendBytes_append, hother, List.append_nil]
    rcases getElem?_concat_cases hu with hu | ⟨rfl, rfl⟩
    · exact h.sent i u hu
    · obtain ⟨hrequest, m, htold⟩ := hsent
      rw [h.sentLast b _ rfl htold, hrequest]
  sentLast := nofun
  good u hu := by
    rcases List.mem_append.1 hu with hu | hu
    · exact h.good u hu
    · rw [List.mem_singleton.1 hu]
      exact hgood
  begun := nofun
  own := nofun

end Narrated

/-! ## What each phase has told -/

/-- The exchange `x` is the last of `n`, and is going on. -/
structure Narrating (n : Nat) (x : Exchange) (told : Option (Moment × List UInt8)) (heads : List ResponseHead)
    (part : List UInt8) (last : Option Begun) (own : Option Gateway) (ended : Option Failing) : Prop where
  number : x.number = n
  last : last = some ⟨x.request, told, heads, part⟩
  own : own = none
  ended : ended = none

/-- What has been told of the last of `n` exchanges, in each phase. -/
def Phase.Telling (c : Context) (n : Nat) (last : Option Begun) (own : Option Gateway) (ended : Option Failing) :
    Phase → Prop
  | .idle => last = none ∧ own = none ∧ ended = none
  | .reading => last = none ∧ own = none ∧ ended = none
  | .connecting x _ => Narrating n x none [] [] last own ended
  | .sending x _ _ => Narrating n x none [] [] last own ended
  | .awaiting x interim => ∃ p heads, Narrating n x (some p) heads [] last own ended ∧
      (∀ h ∈ heads, h.isInterim) ∧ (interim = false → heads = [])
  | .returning x r sent => ∃ p interims part, Narrating n x (some p) (interims ++ [r]) part last own ended ∧
      (∀ h ∈ interims, h.isInterim) ∧ ¬r.isInterim ∧ part.length = sent ∧
      ∀ i : Inlet, x.backend.unread <+: i.unread → part <+: (Transfer.ofInlet c.settings.previewBytes r.framing i).passed
  | .closed => last.isSome → ended.isSome

/-- What holds of events in the course of every run. -/
structure Course.EventsHold (c : Context) (k : Connection) (s : Course) (ts : List Told) (last : Option Begun)
    (own : Option Gateway) (ended : Option Failing) : Prop where
  number : s.connection.number = k.number
  peer : s.connection.peer = k.peer
  replies : s.RepliesHold c (ts.map Told.toReply) (last.map Begun.toReply) own
  narrated : Narrated c k s.acts ts last own ended
  telling : s.connection.phase.Telling c (ts.length + 1) last own ended

section Moves

variable {c : Context} {k : Connection} {s : Course} {x : Exchange} {p : Phase} {new : List Act} {n : Nat} {ts : List Told}
  {last last' : Option Begun} {own own' : Option Gateway} {ended ended' : Option Failing}

theorem Narrating.hear {told : Option (Moment × List UInt8)} {heads : List ResponseHead} {part : List UInt8}
    (h : Narrating n x told heads part last own ended) (e : Happening) :
    Narrating n { x with backend := e.atBackend x.backend } told heads part last own ended :=
  ⟨h.number, h.last, h.own, h.ended⟩

theorem Phase.Telling.hear (h : p.Telling c n last own ended) (e : Happening) : (p.hear e).Telling c n last own ended := by
  cases p with
  | awaiting x interim =>
    obtain ⟨q, heads, hx, hinterims, hnone⟩ := h
    exact ⟨q, heads, hx.hear e, hinterims, hnone⟩
  | returning x r sent =>
    obtain ⟨q, interims, part, hx, hinterims, hfinal, hlength, hpassed⟩ := h
    exact ⟨q, interims, part, hx.hear e, hinterims, hfinal, hlength,
      fun i hi => hpassed i ((e.unread_atBackend x.backend).trans hi)⟩
  | _ => exact h

/-- Between exchanges there is nothing to be told. -/
theorem Phase.Telling.eq_none (h : p.Telling c n last own ended) (hp : p = .idle ∨ p = .reading) :
    last = none ∧ own = none ∧ ended = none := by
  rcases hp with rfl | rfl
  · exact h
  · exact h

theorem Phase.Telling.of_sends {sent : Nat} (h : p.Telling c n last own ended) (hsends : p.Sends x sent) :
    Narrating n x none [] [] last own ended := by
  cases hsends <;> exact h

theorem Phase.Telling.of_concerns (h : p.Telling c n last own ended) (hconcerns : p.Concerns x) :
    ∃ told heads part, Narrating n x told heads part last own ended := by
  cases hconcerns with
  | sending => exact ⟨none, [], [], h⟩
  | awaiting =>
    obtain ⟨q, heads, hx, -⟩ := h
    exact ⟨some q, heads, [], hx⟩
  | returning =>
    obtain ⟨q, interims, part, hx, -⟩ := h
    exact ⟨some q, _, part, hx⟩

theorem Course.EventsHold.exchangeId (h : s.EventsHold c k ts last own ended) (n : Nat) :
    s.connection.exchangeId n = k.exchangeId n := by
  unfold Connection.exchangeId
  rw [h.number]

theorem Course.EventsHold.exchanges (h : s.EventsHold c k ts last own ended) :
    s.connection.exchanges = ts.length + last.toList.length := by
  have hexchanges := h.replies.exchanges
  cases last <;> simpa using hexchanges

theorem Course.EventsHold.enter (h : s.EventsHold c k ts last own ended) {ts' : List Told}
    (hreplies : (s.enter p new).RepliesHold c (ts'.map Told.toReply) (last'.map Begun.toReply) own')
    (hnarrated : Narrated c k (s.acts ++ new) ts' last' own' ended')
    (htelling : p.Telling c (ts'.length + 1) last' own' ended') : (s.enter p new).EventsHold c k ts' last' own' ended' :=
  ⟨h.number, h.peer, hreplies, hnarrated, htelling⟩

theorem Course.EventsHold.hear (h : s.EventsHold c k ts last own ended) (e : Happening) :
    (s.hear e).EventsHold c k ts last own ended :=
  ⟨h.number, h.peer, h.replies.hear e, h.narrated, h.telling.hear e⟩

theorem Course.EventsHold.wait (h : s.EventsHold c k ts last own ended)
    (hphase : s.connection.phase = .idle ∨ s.connection.phase = .reading) :
    (s.enter .reading []).EventsHold c k ts last own ended := by
  refine h.enter (h.replies.wait hphase) ?_ (h.telling.eq_none hphase)
  rw [List.append_nil]
  exact h.narrated

/-- What goes to the backend of the last exchange goes to no other. -/
theorem Narrating.backendBytes_before {told : Option (Moment × List UInt8)} {heads : List ResponseHead} {part : List UInt8}
    (h : Narrating (ts.length + 1) x told heads part last own ended) (bs : List UInt8) (acts : List Act) :
    ∀ n ≤ ts.length, Act.backendBytes n (.toBackend x.number bs :: acts) = Act.backendBytes n acts := by
  intro n hn
  have hne : x.number ≠ n := by
    rw [h.number]
    exact Nat.ne_of_gt (Nat.lt_succ_of_le hn)
  exact Act.backendBytes_toBackend_ne hne bs acts

theorem Course.EventsHold.sendPart {sent : Nat} {bs : List UInt8} {room : Option Nat} (h : s.EventsHold c k ts last own ended)
    (hsends : s.connection.phase.Sends x sent) :
    (s.enter (.sending x (sent + bs.length) room) [.toBackend x.number bs]).EventsHold c k ts last own ended := by
  have hx := h.telling.of_sends hsends
  refine h.enter (h.replies.sendPart hsends)
    (h.narrated.extend (List.append_nil _).symm (hx.backendBytes_before bs []) ?_ h.narrated.begun h.narrated.own) hx
  intro b q hb htold
  obtain rfl := Option.some.inj (hb.symm.trans hx.last)
  cases htold

theorem Course.EventsHold.begin {rest : List UInt8} {head : RequestHead} (h : s.EventsHold c k ts last own ended)
    (started : Nat) (hphase : s.connection.phase = .idle ∨ s.connection.phase = .reading)
    (hfits : head.Fits c.settings.maxHeadBytes) :
    Course.EventsHold c k
      { s with
        connection := { s.connection with
          client := { s.connection.client with unread := rest }
          exchanges := s.connection.exchanges + 1
          phase := .connecting ⟨s.connection.exchanges + 1, head, started, .fresh⟩ none }
        acts := s.acts ++ [.connect (s.connection.exchanges + 1)]
        heads := s.heads ++ [head] } ts (some ⟨head, none, [], []⟩) none none := by
  obtain ⟨rfl, rfl, rfl⟩ := h.telling.eq_none hphase
  have hexchanges : s.connection.exchanges = ts.length := h.exchanges
  refine ⟨h.number, h.peer, h.replies.begin started hphase, ?_, congrArg (· + 1) hexchanges, rfl, rfl, rfl⟩
  refine h.narrated.extend rfl (fun _ _ => rfl) ?_ ?_ nofun
  · intro b q hb htold
    obtain rfl := Option.some.inj hb
    cases htold
  · intro b hb
    obtain rfl := Option.some.inj hb
    exact ⟨hfits, nofun, fun _ => rfl, fun _ => rfl, nofun⟩

theorem Course.EventsHold.consume (h : s.EventsHold c k ts last own ended) (rest : List UInt8) :
    (s.consume rest).EventsHold c k ts last own ended :=
  ⟨h.number, h.peer, h.replies.consume rest, h.narrated, h.telling⟩

/-- The request of the last exchange is one that can be read. -/
theorem Course.EventsHold.fits {sent : Nat} (h : s.EventsHold c k ts last own ended)
    (hsends : s.connection.phase.Sends x sent) : x.request.Fits c.settings.maxHeadBytes :=
  (h.narrated.begun _ (h.telling.of_sends hsends).last).request

/-- The event that a connection tells of a request whose body has gone through its tap. -/
theorem Course.EventsHold.requestEvent (h : s.EventsHold c k ts last own ended) (hn : x.number = n) (m : Moment)
    (body : List UInt8) :
    s.connection.requestEvent c m x ((Http.Tap.ofLimit c.settings.previewBytes).observe body) =
      k.tellsRequest c n m x.request body := by
  unfold Connection.requestEvent Connection.tellsRequest
  rw [h.exchangeId, h.peer, hn]
  simp [Http.Tap.observe, Http.Tap.ofLimit]

theorem Course.EventsHold.responseEvent (h : s.EventsHold c k ts last own ended) (hn : x.number = n) (m : Moment)
    (r : ResponseHead) (body : List UInt8) :
    s.connection.responseEvent c m x r ((Http.Tap.ofLimit c.settings.previewBytes).observe body) =
      k.tellsResponse c n x.started m r body := by
  unfold Connection.responseEvent Connection.tellsResponse
  rw [h.exchangeId, hn]
  simp [Http.Tap.observe, Http.Tap.ofLimit]

theorem Course.EventsHold.sendAll {sent : Nat} {bs body : List UInt8} (h : s.EventsHold c k ts last own ended) (m : Moment)
    (hsends : s.connection.phase.Sends x sent)
    (hsent : Act.backendBytes s.connection.exchanges s.acts ++ bs = x.request.raw ++ body)
    (hbody : ∀ ending rest, x.request.framing.Delimits ending body rest) :
    (s.enter (.awaiting x false)
      [.toBackend x.number bs, .tell (s.connection.requestEvent c m x
        ((Http.Tap.ofLimit c.settings.previewBytes).observe body))]).EventsHold c k ts
          (some ⟨x.request, some (m, body), [], []⟩) none none := by
  have hfits := h.fits hsends
  have hx := h.telling.of_sends hsends
  have hbefore := hx.backendBytes_before bs [.tell (k.tellsRequest c (ts.length + 1) m x.request body)]
  obtain ⟨hnumber, rfl, rfl, rfl⟩ := hx
  have hexchanges : s.connection.exchanges = ts.length + 1 := h.exchanges
  rw [h.requestEvent hnumber]
  refine h.enter (h.replies.sendAll hsends) (h.narrated.extend rfl hbefore ?_ ?_ nofun) ?_
  · intro b q hb htold
    obtain rfl := Option.some.inj hb
    obtain rfl := Option.some.inj htold
    rw [Act.backendBytes_append, Act.backendBytes_toBackend_self hnumber, ← List.append_assoc, ← hexchanges, hsent]
    exact List.append_nil _
  · intro b hb
    obtain rfl := Option.some.inj hb
    refine ⟨hfits, fun p hp => ?_, nofun, fun _ => rfl, nofun⟩
    obtain rfl := Option.some.inj hp
    exact hbody
  · exact ⟨(m, body), [], ⟨hnumber, rfl, rfl, rfl⟩, nofun, fun _ => rfl⟩

theorem Narrated.passHead {acts : List Act} {request : RequestHead} {q : Moment × List UInt8} {heads : List ResponseHead}
    {head : ResponseHead} (h : Narrated c k acts ts (some ⟨request, some q, heads, []⟩) none none)
    (hfits : head.Fits c.settings.maxHeadBytes request.parts.method) :
    Narrated c k (acts ++ [.toClient head.raw]) ts (some ⟨request, some q, heads ++ [head], []⟩) none none := by
  have hgood := h.begun _ rfl
  refine h.extend (List.append_nil _).symm (fun _ _ => rfl) ?_ ?_ nofun
  · intro b p hb hp
    obtain rfl := Option.some.inj hb
    exact h.sentLast_append (b := ⟨request, some q, heads, []⟩) rfl rfl hp
  · intro b hb
    obtain rfl := Option.some.inj hb
    refine ⟨hgood.request, hgood.body, fun htold => absurd htold (Option.some_ne_none q), fun _ => rfl,
      fun other hother => ?_⟩
    rcases List.mem_append.1 hother with hother | hother
    · exact hgood.heads other hother
    · rw [List.mem_singleton.1 hother]
      exact hfits

theorem Begun.toReply_passHead {request : RequestHead} {told : Option (Moment × List UInt8)} {heads : List ResponseHead}
    {out : List UInt8} {head : ResponseHead}
    (h : (some ⟨request, told, heads, []⟩ : Option Begun).map Begun.toReply = some ⟨request, out⟩) :
    (⟨request, out ++ head.raw⟩ : Reply) = Begun.toReply ⟨request, told, heads ++ [head], []⟩ := by
  obtain rfl : out = Begun.out ⟨request, told, heads, []⟩ := (congrArg Reply.out (Option.some.inj h)).symm
  simp [Begun.toReply, Begun.out]

theorem Course.EventsHold.interim {interim : Bool} {blank rest : List UInt8} {head : ResponseHead}
    (h : s.EventsHold c k ts last own ended) (hphase : s.connection.phase = .awaiting x interim) (hblank : IsBlank blank)
    (hfits : head.Fits c.settings.maxHeadBytes x.request.parts.method) (hinterim : head.isInterim)
    (hbytes : x.backend.unread = blank ++ (head.raw ++ rest)) :
    ∃ last', (s.enter (.awaiting { x with backend := { x.backend with unread := rest } } true)
      [.toClient head.raw]).EventsHold c k ts last' none none := by
  have htelling := h.telling
  rw [hphase] at htelling
  obtain ⟨q, heads, ⟨hnumber, rfl, rfl, rfl⟩, hinterims, -⟩ := htelling
  obtain ⟨out, hout, -, hreplies⟩ := h.replies.interim hphase hblank hfits hinterim hbytes
  rw [Begun.toReply_passHead hout] at hreplies
  refine ⟨some ⟨x.request, some q, heads ++ [head], []⟩, h.enter hreplies (h.narrated.passHead hfits)
    ⟨q, heads ++ [head], ⟨hnumber, rfl, rfl, rfl⟩, ?_, nofun⟩⟩
  intro other hother
  rcases List.mem_append.1 hother with hother | hother
  · exact hinterims other hother
  · rw [List.mem_singleton.1 hother]
    exact hinterim

theorem Course.EventsHold.final {interim : Bool} {blank rest : List UInt8} {head : ResponseHead}
    (h : s.EventsHold c k ts last own ended) (hphase : s.connection.phase = .awaiting x interim) (hblank : IsBlank blank)
    (hfits : head.Fits c.settings.maxHeadBytes x.request.parts.method) (hfinal : ¬head.isInterim)
    (hbytes : x.backend.unread = blank ++ (head.raw ++ rest)) :
    ∃ last', (s.enter (.returning { x with backend := { x.backend with unread := rest } } head 0)
      [.toClient head.raw]).EventsHold c k ts last' none none := by
  have htelling := h.telling
  rw [hphase] at htelling
  obtain ⟨q, heads, ⟨hnumber, rfl, rfl, rfl⟩, hinterims, -⟩ := htelling
  obtain ⟨out, hout, -, hreplies⟩ := h.replies.final hphase hblank hfits hfinal hbytes
  rw [Begun.toReply_passHead hout] at hreplies
  exact ⟨some ⟨x.request, some q, heads ++ [head], []⟩, h.enter hreplies (h.narrated.passHead hfits)
    ⟨q, heads, [], ⟨hnumber, rfl, rfl, rfl⟩, hinterims, hfinal, rfl, fun _ _ => List.nil_prefix⟩⟩

theorem Course.EventsHold.passBody {r : ResponseHead} {sent : Nat} (h : s.EventsHold c k ts last own ended)
    (hphase : s.connection.phase = .returning x r sent) :
    ∃ last', (s.enter (.returning x r (x.response c r).passed.length)
      [.toClient ((x.response c r).passed.drop sent)]).EventsHold c k ts last' none none := by
  have htelling := h.telling
  rw [hphase] at htelling
  obtain ⟨q, interims, part, ⟨hnumber, rfl, rfl, rfl⟩, hinterims, hfinal, rfl, hpassed⟩ := htelling
  -- what has gone so far is a front of what the backend has sent by now
  obtain ⟨more, hmore⟩ : part <+: (x.response c r).passed := hpassed x.backend (List.prefix_refl _)
  have hdrop : (x.response c r).passed.drop part.length = more := by rw [← hmore, List.drop_left]
  obtain ⟨out, hout, -, hreplies⟩ := h.replies.passBody hphase
  obtain rfl : out = Begun.out ⟨x.request, some q, interims ++ [r], part⟩ :=
    (congrArg Reply.out (Option.some.inj hout)).symm
  have hall : Begun.out ⟨x.request, some q, interims ++ [r], part⟩ ++ (x.response c r).passed.drop part.length =
      Begun.out ⟨x.request, some q, interims ++ [r], (x.response c r).passed⟩ := by
    rw [hdrop, ← hmore]
    simp [Begun.out]
  rw [hall] at hreplies
  have hgood := h.narrated.begun _ rfl
  refine ⟨some ⟨x.request, some q, interims ++ [r], (x.response c r).passed⟩, h.enter hreplies ?_
    ⟨q, interims, _, ⟨hnumber, rfl, rfl, rfl⟩, hinterims, hfinal, rfl, fun i hi => Transfer.passed_mono _ _ hi⟩⟩
  refine h.narrated.extend (List.append_nil _).symm (fun _ _ => rfl) ?_ ?_ nofun
  · intro b p hb hp
    obtain rfl := Option.some.inj hb
    exact h.narrated.sentLast_append (b := ⟨x.request, some q, interims ++ [r], part⟩) rfl rfl hp
  · intro b hb
    obtain rfl := Option.some.inj hb
    exact ⟨hgood.request, hgood.body, fun htold => absurd htold (Option.some_ne_none q), by simp, hgood.heads⟩

/-- The last exchange is one of those that are told. -/
theorem Course.RepliesHold.concat {reply : Reply} {t : Told}
    (h : s.RepliesHold c (ts.map Told.toReply ++ [reply]) none none) (ht : some reply = some t.toReply) :
    s.RepliesHold c ((ts ++ [t]).map Told.toReply) none none := by
  obtain rfl := Option.some.inj ht
  rw [List.map_append]
  exact h

/-- The response is told, whether the connection goes on or not. -/
theorem Course.EventsHold.done {r : ResponseHead} {rest : List UInt8} (h : s.EventsHold c k ts last own ended) (m : Moment)
    (new : List Act) (hphase : s.connection.phase = .returning x r (x.response c r).passed.length)
    (hstanding : (x.response c r).standing = .whole rest)
    (hnew : Act.events new = [s.connection.responseEvent c m x r (x.response c r).tap])
    (hbackend : ∀ n, Act.backendBytes n new = []) :
    ∃ t, Narrated c k (s.acts ++ new) (ts ++ [t]) none none none ∧ last.map Begun.toReply = some t.toReply := by
  have htelling := h.telling
  rw [hphase] at htelling
  obtain ⟨q, interims, part, ⟨hnumber, rfl, rfl, rfl⟩, hinterims, hfinal, hlength, hpassed⟩ := htelling
  have hpart : part = (x.response c r).passed := (hpassed x.backend (List.prefix_refl _)).eq_of_length hlength
  have htap : (x.response c r).tap = (Http.Tap.ofLimit c.settings.previewBytes).observe part := by
    rw [hpart]
    exact Transfer.tap_eq _ _ _
  have hgood := h.narrated.begun _ rfl
  have hreply : r.framing.Delimits x.backend.source.ending part rest := by
    rw [hpart]
    exact (Transfer.delimits_of_whole hstanding).2
  let t : Told := ⟨x.request, q.2, q.1, interims, r, part, x.started, m⟩
  refine ⟨t, h.narrated.finish hnew ?_ hbackend ⟨rfl, q.1, rfl⟩
    ⟨hgood.request, hgood.body q rfl, ?_, ⟨?_, hfinal⟩, _, rest, hreply⟩, ?_⟩
  · rw [htap, h.responseEvent hnumber]
    rfl
  · intro head hhead
    exact ⟨hgood.heads head (List.mem_append_left _ hhead), hinterims head hhead⟩
  · exact hgood.heads r (List.mem_append_right _ (List.mem_singleton_self r))
  · simp [t, Begun.toReply, Told.toReply, Begun.out, Told.out]

theorem Narrated.fail {acts : List Act} (h : Narrated c k acts ts last none none) (f : Failing) :
    Narrated c k (acts ++ [.tell (f.event k (ts.length + 1) last none), .close]) ts last none (some f) := by
  refine h.extend ?_ (fun _ _ => rfl) (fun b p => h.sentLast_append rfl) h.begun nofun
  simp [Act.events]

theorem Course.EventsHold.finish (h : s.EventsHold c k ts last own ended) (hends : s.Ends c new) :
    ∃ ts' last' ended', (s.enter .closed new).EventsHold c k ts' last' none ended' := by
  have hreplies := h.replies.finish hends.isMute
  cases hends with
  | leave hphase =>
    obtain ⟨rfl, rfl, rfl⟩ := h.telling.eq_none hphase
    exact ⟨ts, none, none, h.enter hreplies (h.narrated.extend rfl (fun _ _ => rfl) nofun nofun nofun) nofun⟩
  | refuse m message hphase =>
    obtain ⟨rfl, rfl, rfl⟩ := h.telling.eq_none hphase
    exact ⟨ts, none, some ⟨m, message⟩, h.enter hreplies (h.narrated.fail ⟨m, message⟩) nofun⟩
  | giveUp m message hconcerns =>
    obtain ⟨told, heads, part, hnumber, rfl, rfl, rfl⟩ := h.telling.of_concerns hconcerns
    rw [h.exchangeId, hnumber] at hreplies ⊢
    exact ⟨ts, _, some ⟨m, message⟩, h.enter hreplies (h.narrated.fail ⟨m, message⟩) fun _ => rfl⟩
  | done m hphase hstanding =>
    obtain ⟨t, hnarrated, ht⟩ := h.done m [.tell _, .close] hphase hstanding rfl fun _ => rfl
    obtain ⟨reply, hreply, -, hdone⟩ := h.replies.doneLast hphase hstanding
    exact ⟨ts ++ [t], none, none, h.enter (hdone.concat (hreply.symm.trans ht)) hnarrated nofun⟩

theorem Course.EventsHold.answer (h : s.EventsHold c k ts last own ended) (m : Moment) (g : Gateway)
    (hphase : (∃ sent, s.connection.phase.Sends x sent) ∨ s.connection.phase = .awaiting x false) :
    (s.enter .closed (.toClient g.answer :: s.connection.answered m x g)).EventsHold c k ts last (some g)
      (some ⟨m, g.message⟩) := by
  have hnothing : ∃ told, Narrating (ts.length + 1) x told [] [] last own ended := by
    rcases hphase with ⟨sent, hsends⟩ | hphase
    · exact ⟨none, h.telling.of_sends hsends⟩
    · have htelling := h.telling
      rw [hphase] at htelling
      obtain ⟨q, heads, hx, -, hnone⟩ := htelling
      rw [hnone rfl] at hx
      exact ⟨some q, hx⟩
  obtain ⟨told, hnumber, rfl, rfl, rfl⟩ := hnothing
  -- the answer is that to the last exchange, and nothing has gone to the client in this one
  have hanswered : s.connection.answered m x g = k.answered m ⟨ts.length + 1, x.request, x.started, x.backend⟩ g := by
    unfold Connection.answered
    rw [h.exchangeId, hnumber]
  rw [hanswered]
  refine h.enter (h.replies.answer g hphase (Connection.isMute_answered m k _ g))
    (h.narrated.extend ?_ (fun _ _ => rfl) (fun b p => h.narrated.sentLast_append rfl) h.narrated.begun ?_) fun _ => rfl
  · simp [Act.events, Connection.answered, Failing.event]
  · intro g' hg
    obtain rfl := Option.some.inj hg
    rfl

/-- **What holds of events holds after each move.** -/
theorem Course.EventsHold.move {t : Course} (h : s.EventsHold c k ts last own ended) (hrequests : s.RequestsHold c)
    (hmove : Move c s t) : ∃ ts' last' own' ended', t.EventsHold c k ts' last' own' ended' := by
  cases hmove with
  | hear e => exact ⟨_, _, _, _, h.hear e⟩
  | wait hphase => exact ⟨_, _, _, _, h.wait hphase⟩
  | begin started hphase hblank hfits => exact ⟨_, _, _, _, h.begin started hphase hfits⟩
  | sendPart room hsends => exact ⟨_, _, _, _, h.sendPart hsends⟩
  | @sendAll m x sent rest hsends hstanding =>
    obtain ⟨ms, opening, -, hsending, -⟩ := hrequests
    have hsent := (hsending.underway hsends).append_due
    have hbody : ∀ ending rest, x.request.framing.Delimits ending (s.request c x).passed rest := fun ending rest =>
      (Transfer.delimits_of_whole hstanding).2.of_ne_untilClose (h.fits hsends).framing_ne_untilClose
    have hall := (h.consume rest).sendAll m hsends hsent hbody
    have htap : (s.request c x).tap = _ := Transfer.tap_eq _ _ _
    rw [htap]
    exact ⟨_, _, _, _, hall⟩
  | interim hphase hblank hfits hinterim hbytes =>
    obtain ⟨last', hlast⟩ := h.interim hphase hblank hfits hinterim hbytes
    exact ⟨_, _, _, _, hlast⟩
  | final hphase hblank hfits hfinal hbytes =>
    obtain ⟨last', hlast⟩ := h.final hphase hblank hfits hfinal hbytes
    exact ⟨_, _, _, _, hlast⟩
  | passBody hphase =>
    obtain ⟨last', hlast⟩ := h.passBody hphase
    exact ⟨_, _, _, _, hlast⟩
  | done m hphase hstanding =>
    obtain ⟨u, hnarrated, hu⟩ := h.done m [.tell _] hphase hstanding rfl fun _ => rfl
    obtain ⟨reply, hreply, -, hdone⟩ := h.replies.done hphase hstanding
    exact ⟨ts ++ [u], none, none, none,
      h.enter (hdone.concat (hreply.symm.trans hu)) hnarrated ⟨rfl, rfl, rfl⟩⟩
  | finish hends =>
    obtain ⟨ts', last', ended', hfinish⟩ := h.finish hends
    exact ⟨_, _, _, _, hfinish⟩
  | answer m g hphase => exact ⟨_, _, _, _, h.answer m g hphase⟩

theorem Phase.Telling.closed_of_ended (h : p.Telling c n last own ended) (hended : ended.isSome) : p = .closed := by
  have hnone : ∀ {p : Prop}, ended = none → p := fun hnone => by
    rw [hnone] at hended
    cases hended
  cases p with
  | idle => exact hnone h.2.2
  | reading => exact hnone h.2.2
  | connecting x room => exact hnone h.ended
  | sending x sent room => exact hnone h.ended
  | awaiting x interim =>
    obtain ⟨q, heads, hx, -⟩ := h
    exact hnone hx.ended
  | returning x r sent =>
    obtain ⟨q, interims, part, hx, -⟩ := h
    exact hnone hx.ended
  | closed => rfl

end Moves

/-! ## Runs of a connection -/

theorem Course.eventsHold_fresh (c : Context) (number : Nat) (peer : String) :
    (Course.fresh number peer).EventsHold c (.fresh number peer) [] none none none := by
  refine ⟨rfl, rfl, Course.repliesHold_fresh c number peer, ⟨rfl, nofun, nofun, nofun, nofun, nofun⟩, rfl, rfl, rfl⟩

namespace Connection

/-- **What a connection tells is what it does.** -/
theorem narrated_run (c : Context) (number : Nat) (peer : String) (hs : List (Moment × Happening)) :
    let k := fresh number peer
    let r := k.run c hs
    (∃ ts last own ended, Narrated c k r.2 ts last own ended ∧
      Faithful c (fromClient hs) (fun n => fromBackend c n .fresh k hs) r.1 r.2 (ts.map Told.toReply)
        (last.map Begun.toReply) own ∧
      (ended.isSome → r.1.phase = .closed) ∧ (r.1.phase = .closed → last.isSome → ended.isSome)) ∧
    Act.connects r.2 = List.range' 1 r.1.exchanges := by
  intro k r
  obtain ⟨heads, hrequests, ts, last, own, ended, hevents⟩ :=
    Connection.run_of_moves
      (P := fun s => s.RequestsHold c ∧ ∃ ts last own ended, s.EventsHold c k ts last own ended) c number peer hs
      ⟨Course.requestsHold_fresh c number peer, [], none, none, none, Course.eventsHold_fresh c number peer⟩
      fun s t hmove ⟨hrequests, ts, last, own, ended, hevents⟩ => ⟨hrequests.move hmove, hevents.move hrequests hmove⟩
  have hfaithful := hevents.replies.faithful hrequests
  obtain ⟨ms, opening, hiso, -, -⟩ := hrequests
  refine ⟨⟨ts, last, own, ended, hevents.narrated, hfaithful, hevents.telling.closed_of_ended, fun hclosed => ?_⟩,
    hiso.connects⟩
  have htelling := hevents.telling
  rw [show r.1.phase = .closed from hclosed] at htelling
  exact htelling

/-- Exchanges have different identifiers, also on different connections. -/
theorem number_eq_of_exchangeId {k k' : Connection} {n n' : Nat} (h : k.exchangeId n = k'.exchangeId n') :
    k.number = k'.number ∧ n = n' := by
  have hlist := congrArg String.toList h
  have hdash : ∀ n, '-' ∉ Numeral.digits n := fun n hmem => by
    have hdigit := Numeral.isDigit_of_mem_digits hmem
    revert hdigit
    decide
  unfold exchangeId Numeral.text at hlist
  simp only [String.toList_append, String.toList_ofList, List.append_assoc] at hlist
  obtain ⟨hnumber, -, hexchange⟩ := (List.append_cons_inj_of_notMem (hdash _) (hdash _)).1 hlist
  exact ⟨Numeral.text_inj (congrArg String.ofList hnumber), Numeral.text_inj (congrArg String.ofList hexchange)⟩

end Connection

/-! ## Runs of a relay -/

namespace Server

/-- The exchanges that begin, each with the number of its connection. -/
def begun (acts : List (Nat × Act)) : List (Nat × Nat) :=
  acts.filterMap fun
    | (number, .connect n) => some (number, n)
    | _ => none

theorem connects_actsOf (number : Nat) (acts : List (Nat × Act)) :
    Act.connects (actsOf number acts) = (begun acts).filterMap fun p => if p.1 = number then some p.2 else none := by
  unfold Act.connects actsOf begun
  rw [List.filterMap_filterMap, List.filterMap_filterMap]
  refine List.filterMap_congr fun p _ => ?_
  obtain ⟨other, a⟩ := p
  by_cases h : other = number
  · cases a <;> simp [h]
  · cases a <;> simp [h]

/-- Pairs are different if they are among those with the same number in front. -/
theorem nodup_of_filterMap : ∀ {ps : List (Nat × Nat)},
    (∀ number, (ps.filterMap fun p => if p.1 = number then some p.2 else none).Nodup) → ps.Nodup
  | [], _ => .nil
  | p :: ps, h => by
    have hp : (p.2 :: ps.filterMap fun q => if q.1 = p.1 then some q.2 else none).Nodup := by simpa using h p.1
    refine List.nodup_cons.2 ⟨fun hmem => ?_, nodup_of_filterMap fun number => ?_⟩
    · exact (List.nodup_cons.1 hp).1 (List.mem_filterMap.2 ⟨p, hmem, if_pos rfl⟩)
    · exact (h number).sublist ((List.sublist_cons_self p ps).filterMap _)

end Server

/-- **What a relay tells is what it does**, on any number of connections and whatever happens to them.  What it tells of a
connection is what the client has sent and received there (`Faithful`).  A connection that has told of a failure does nothing
more, and an exchange that has begun is told of before its connection is closed.  Nothing is told of a connection that is not
there, and no two exchanges share an identifier. -/
theorem events_narrated (c : Context) (os : List (Moment × Occurrence)) :
    let r := Server.fresh.run c os
    (∀ (i : Nat) (k : Connection), r.1.connections[i]? = some k → ∃ peer,
      let hs := Server.heard c (i + 1) .fresh os
      let k₀ := Connection.fresh (i + 1) peer
      let acts := Server.actsOf (i + 1) r.2
      k₀.run c hs = (k, acts) ∧ ∃ ts last own ended, Narrated c k₀ acts ts last own ended ∧
        Faithful c (Connection.fromClient hs) (fun n => Connection.fromBackend c n .fresh k₀ hs) k acts
          (ts.map Told.toReply) (last.map Begun.toReply) own ∧
        (ended.isSome → ∀ more, Server.actsOf (i + 1) (Server.fresh.run c (os ++ more)).2 = acts) ∧
        (k.phase = .closed → last.isSome → ended.isSome)) ∧
    (∀ number, (∃ i k, number = i + 1 ∧ r.1.connections[i]? = some k) ∨ Server.actsOf number r.2 = []) ∧
    ((Server.begun r.2).map fun p => (Connection.fresh p.1 "").exchangeId p.2).Nodup := by
  intro r
  have hpresent : ∀ number, (∃ i k, number = i + 1 ∧ r.1.connections[i]? = some k) ∨ Server.actsOf number r.2 = [] :=
    fun number => or_iff_not_imp_left.2 fun habsent =>
      Server.actsOf_run_of_absent os fun i k hi hk => habsent ⟨i, k, hi, hk⟩
  refine ⟨fun i k hk => ?_, hpresent, ?_⟩
  · obtain ⟨peer, hrun⟩ := Server.run_of_none os (Nat.zero_le i) hk
    obtain ⟨⟨ts, last, own, ended, hnarrated, hfaithful, hended, hlast⟩, -⟩ :=
      Connection.narrated_run c (i + 1) peer (Server.heard c (i + 1) .fresh os)
    rw [hrun] at hnarrated hfaithful hended hlast
    refine ⟨peer, hrun, ts, last, own, ended, hnarrated, hfaithful, fun h more => ?_, hlast⟩
    rw [Server.run_append, Server.actsOf_append, Server.actsOf_run_of_closed more hk (hended h)]
    exact List.append_nil _
  · have hnodup : (Server.begun r.2).Nodup := Server.nodup_of_filterMap fun number => by
      rw [← Server.connects_actsOf]
      rcases hpresent number with ⟨i, k, rfl, hk⟩ | hnothing
      · obtain ⟨peer, hrun⟩ := Server.run_of_none os (Nat.zero_le i) hk
        have hconnects := (Connection.narrated_run c (i + 1) peer (Server.heard c (i + 1) .fresh os)).2
        rw [hrun] at hconnects
        rw [hconnects]
        exact List.nodup_range'
      · rw [hnothing]
        exact .nil
    refine hnodup.map fun p q h => ?_
    obtain ⟨hnumber, hexchange⟩ := Connection.number_eq_of_exchangeId h
    exact Prod.ext hnumber hexchange

end Relay
end SearchTelemetry
