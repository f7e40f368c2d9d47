import SearchTelemetry.Proofs.Relay.Moves
import SearchTelemetry.Proofs.Text.Numeral
/-!
# Relay.Requests — each request goes to a backend of its own

The client's stream is a sequence of requests: empty lines, a head, a body, and so on.  An exchange sends one of them on, from
its first byte to its last, and nothing else (`requests_isolated`).  Where it stops short, no other exchange follows, so the
next head is always read behind the last body.
-/
namespace SearchTelemetry
namespace Relay

open Http (IsBlank RequestHead)

theorem getElem?_concat_cases {α : Type} {l : List α} {a b : α} {i : Nat} (h : (l ++ [a])[i]? = some b) :
    l[i]? = some b ∨ i = l.length ∧ b = a := by
  rcases Nat.lt_trichotomy i l.length with hlt | rfl | hgt
  · rw [List.getElem?_append_left hlt] at h
    exact .inl h
  · rw [List.getElem?_concat_length] at h
    exact .inr ⟨rfl, (Option.some.inj h).symm⟩
  · rw [List.getElem?_eq_none (by simpa using Nat.succ_le_of_lt hgt)] at h
    cases h

/-! ## Acts towards the backend -/

namespace Act

/-- The exchanges for which a backend connection is opened. -/
def connects (acts : List Act) : List Nat :=
  acts.filterMap fun
    | connect n => some n
    | _ => none

/-- The identifiers in the events of requests. -/
def requestIds (acts : List Act) : List String :=
  acts.filterMap fun
    | tell (.request id ..) => some id
    | _ => none

theorem connects_append (a b : List Act) : connects (a ++ b) = connects a ++ connects b :=
  List.filterMap_append

theorem requestIds_append (a b : List Act) : requestIds (a ++ b) = requestIds a ++ requestIds b :=
  List.filterMap_append

theorem backendBytes_append (n : Nat) (a b : List Act) : backendBytes n (a ++ b) = backendBytes n a ++ backendBytes n b :=
  List.flatMap_append

theorem backendBytes_toBackend_self {n m : Nat} (h : m = n) (bs : List UInt8) (acts : List Act) :
    backendBytes n (toBackend m bs :: acts) = bs ++ backendBytes n acts :=
  congrArg (· ++ backendBytes n acts) (if_pos h)

theorem backendBytes_toBackend_ne {n m : Nat} (h : m ≠ n) (bs : List UInt8) (acts : List Act) :
    backendBytes n (toBackend m bs :: acts) = backendBytes n acts :=
  congrArg (· ++ backendBytes n acts) (if_neg h)

/-- An act that is nothing to a backend, and no event of a request. -/
def FacesClient : Act → Prop
  | toClient _ => True
  | a => a.IsMute

variable {acts : List Act}

theorem facesClient_of_isMute {a : Act} (h : a.IsMute) : a.FacesClient := by
  cases a <;> first | exact h | trivial

theorem connects_of_facesClient (h : ∀ a ∈ acts, a.FacesClient) : connects acts = [] := by
  refine List.filterMap_eq_nil_iff.2 fun a ha => ?_
  have := h a ha
  cases a <;> first | rfl | cases this

theorem requestIds_of_facesClient (h : ∀ a ∈ acts, a.FacesClient) : requestIds acts = [] := by
  refine List.filterMap_eq_nil_iff.2 fun a ha => ?_
  have := h a ha
  cases a with
  | tell e =>
    cases e with
    | request => cases this
    | response => rfl
    | failure => rfl
  | _ => rfl

theorem backendBytes_of_facesClient (h : ∀ a ∈ acts, a.FacesClient) (n : Nat) : backendBytes n acts = [] := by
  refine List.flatMap_eq_nil_iff.2 fun a ha => ?_
  have := h a ha
  cases a <;> first | rfl | cases this

end Act

/-! ## Requests of a stream -/

/-- The beginning of a request in a stream. -/
structure Opening where
  /-- Empty lines in front of the head. -/
  blank : List UInt8
  head : RequestHead

/-- A request in a stream. -/
structure Piece extends Opening where
  body : List UInt8

namespace Opening

def bytes (o : Opening) : List UInt8 :=
  o.blank ++ o.head.raw

/-- A head that can be read, with nothing but empty lines in front. -/
structure IsGood (max : Nat) (o : Opening) : Prop where
  blank : IsBlank o.blank
  head : o.head.Fits max

end Opening

namespace Piece

/-- What is sent on of a request. -/
def sent (m : Piece) : List UInt8 :=
  m.head.raw ++ m.body

def bytes (m : Piece) : List UInt8 :=
  m.blank ++ m.sent

/-- A good head with the whole of its body. -/
structure IsGood (max : Nat) (m : Piece) : Prop where
  opening : m.toOpening.IsGood max
  body : ∀ ending rest, m.head.framing.Delimits ending m.body rest

end Piece

/-- What was sent of a request whose body, as far as it has come, is `tail`: less than all of it, whatever else may come. -/
structure Short (head : RequestHead) (tail sent : List UInt8) : Prop where
  front : sent <+: head.raw ++ tail
  less : ∀ more body rest ending, tail ++ more = body ++ rest → head.framing.Delimits ending body rest →
    sent <+: head.raw ++ body ∧ sent ≠ head.raw ++ body

theorem Short.append {head : RequestHead} {tail sent tail' : List UInt8} (h : Short head tail sent) (htail : tail <+: tail') :
    Short head tail' sent := by
  obtain ⟨later, rfl⟩ := htail
  refine ⟨h.front.trans ?_, fun more body rest ending hs => ?_⟩
  · rw [← List.append_assoc]
    exact List.prefix_append _ _
  · rw [List.append_assoc] at hs
    exact h.less _ body rest ending hs

/-! ## What the exchanges of a connection are to the client's stream -/

/-- **The exchanges of a connection, taken apart from each other.**  These requests `ms` of the client's stream have been
sent on whole, each on a connection of its own; `last` is one that has been begun only. -/
structure Isolated (c : Context) (client : Inlet) (k : Connection) (acts : List Act) (ms : List Piece)
    (last : Option Opening) : Prop where
  /-- The stream divides into the requests and what is not consumed. -/
  stream : client.Splits (ms.flatMap Piece.bytes ++ last.toList.flatMap Opening.bytes) k.client
  good : ∀ m ∈ ms, m.IsGood c.settings.maxHeadBytes
  begun : ∀ o, last = some o → o.IsGood c.settings.maxHeadBytes
  exchanges : k.exchanges = ms.length + last.toList.length
  /-- Each exchange has one backend connection. -/
  connects : Act.connects acts = List.range' 1 k.exchanges
  /-- The event of a request is told for each that has been sent on whole, and for no other. -/
  told : Act.requestIds acts = (List.range' 1 ms.length).map k.exchangeId
  whole : ∀ i m, ms[i]? = some m → Act.backendBytes (i + 1) acts = m.sent
  short : ∀ o, last = some o → Short o.head k.client.unread (Act.backendBytes k.exchanges acts)
  nothing : ∀ n, n = 0 ∨ k.exchanges < n → Act.backendBytes n acts = []

/-- The last exchange is `x`, and so many bytes of its request have been sent: the first ones, whatever else may come. -/
structure Course.Underway (c : Context) (s : Course) (last : Option Opening) (x : Exchange) (sent : Nat) : Prop where
  number : x.number = s.connection.exchanges
  last : last.map Opening.head = some x.request
  length : (Act.backendBytes s.connection.exchanges s.acts).length = sent
  front : ∀ i : Inlet, s.connection.client.unread <+: i.unread →
    Act.backendBytes s.connection.exchanges s.acts <+:
      x.request.raw ++ (Transfer.ofInlet c.settings.previewBytes x.request.framing i).passed

/-- What is known of the last exchange in each phase. -/
def Course.Sending (c : Context) (s : Course) (last : Option Opening) : Prop :=
  match s.connection.phase with
  | .connecting x _ => s.Underway c last x 0
  | .sending x sent _ => s.Underway c last x sent
  | .closed => True
  | _ => last = none

/-- What holds of requests in the course of every run. -/
def Course.RequestsHold (c : Context) (s : Course) : Prop :=
  ∃ ms last, Isolated c s.client s.connection s.acts ms last ∧ s.Sending c last ∧
    s.heads = ms.map (·.head) ++ last.toList.map (·.head)

section Moves

variable {c : Context} {s : Course} {client : Inlet} {k : Connection} {x : Exchange} {acts new : List Act} {ms : List Piece}
  {last : Option Opening}

theorem Isolated.facing (h : Isolated c client k acts ms last) (hnew : ∀ a ∈ new, a.FacesClient) (p : Phase) :
    Isolated c client { k with phase := p } (acts ++ new) ms last where
  stream := h.stream
  good := h.good
  begun := h.begun
  exchanges := h.exchanges
  connects := by rw [Act.connects_append, Act.connects_of_facesClient hnew, List.append_nil, h.connects]
  told := by
    rw [Act.requestIds_append, Act.requestIds_of_facesClient hnew, List.append_nil, h.told]
    rfl
  whole i m hm := by rw [Act.backendBytes_append, Act.backendBytes_of_facesClient hnew, List.append_nil, h.whole i m hm]
  short o ho := by
    rw [Act.backendBytes_append, Act.backendBytes_of_facesClient hnew, List.append_nil]
    exact h.short o ho
  nothing n hn := by
    rw [Act.backendBytes_append, Act.backendBytes_of_facesClient hnew, List.append_nil, h.nothing n hn]

theorem Isolated.hear (h : Isolated c client k acts ms last) (e : Happening) (p : Phase) :
    Isolated c (e.atClient client) { k with client := e.atClient k.client, phase := p } acts ms last where
  stream := h.stream.atClient e
  good := h.good
  begun := h.begun
  exchanges := h.exchanges
  connects := h.connects
  told := h.told
  whole := h.whole
  short o ho := (h.short o ho).append (e.unread_atClient k.client)
  nothing := h.nothing

/-- An exchange begins: its head is consumed, and nothing has been sent yet. -/
theorem Isolated.begin (h : Isolated c client k acts ms none) {blank rest : List UInt8} {head : RequestHead}
    (hblank : IsBlank blank) (hfits : head.Fits c.settings.maxHeadBytes)
    (hs : k.client.unread = blank ++ (head.raw ++ rest)) (p : Phase) :
    Isolated c client
      { k with client := { k.client with unread := rest }, exchanges := k.exchanges + 1, phase := p }
      (acts ++ [.connect (k.exchanges + 1)]) ms (some ⟨blank, head⟩) where
  stream := by
    have hstream := h.stream.consume (hs.trans (List.append_assoc _ _ _).symm)
    simpa [Opening.bytes] using hstream
  good := h.good
  begun o ho := by
    cases ho
    exact ⟨hblank, hfits⟩
  exchanges := by simp [h.exchanges]
  connects := by
    rw [Act.connects_append, h.connects, List.range'_1_concat, Nat.add_comm 1]
    rfl
  told := by
    rw [Act.requestIds_append, h.told]
    exact List.append_nil _
  whole i m hm := by
    rw [Act.backendBytes_append, h.whole i m hm]
    exact List.append_nil _
  short o ho := by
    cases ho
    rw [Act.backendBytes_append, h.nothing _ (.inr (Nat.lt_succ_self _))]
    refine ⟨List.nil_prefix, fun more body rest ending _ _ => ⟨List.nil_prefix, fun hnil => ?_⟩⟩
    exact hfits.isHead.ne_nil (List.append_eq_nil_iff.1 hnil.symm).1
  nothing n hn := by
    have hlater : n = 0 ∨ k.exchanges < n := hn.imp_right (Nat.lt_trans (Nat.lt_succ_self _))
    rw [Act.backendBytes_append, h.nothing n hlater]
    rfl

theorem Isolated.succ_ne {o : Opening} {i : Nat} {m : Piece} (h : Isolated c client k acts ms (some o))
    (hm : ms[i]? = some m) : i + 1 ≠ k.exchanges := by
  have hlt : i < ms.length := (List.getElem?_eq_some_iff.1 hm).1
  rw [h.exchanges]
  exact Nat.ne_of_lt (Nat.succ_lt_succ hlt)

theorem Isolated.ne_exchanges {o : Opening} {n : Nat} (h : Isolated c client k acts ms (some o))
    (hn : n = 0 ∨ k.exchanges < n) : n ≠ k.exchanges := by
  rintro rfl
  have hpos : k.exchanges ≠ 0 := by
    rw [h.exchanges]
    exact Nat.succ_ne_zero _
  exact hn.elim hpos (Nat.lt_irrefl _)

/-- A part of the request of the last exchange is sent on. -/
theorem Isolated.sendPart {o : Opening} {bs : List UInt8} (h : Isolated c client k acts ms (some o))
    (hnumber : x.number = k.exchanges)
    (hshort : Short o.head k.client.unread (Act.backendBytes k.exchanges (acts ++ [.toBackend x.number bs]))) (p : Phase) :
    Isolated c client { k with phase := p } (acts ++ [.toBackend x.number bs]) ms (some o) where
  stream := h.stream
  good := h.good
  begun := h.begun
  exchanges := h.exchanges
  connects := by
    rw [Act.connects_append, h.connects]
    exact List.append_nil _
  told := by
    rw [Act.requestIds_append, h.told]
    exact List.append_nil _
  whole i m hm := by
    have hother : x.number ≠ i + 1 := hnumber ▸ (h.succ_ne hm).symm
    rw [Act.backendBytes_append, h.whole i m hm, Act.backendBytes_toBackend_ne hother]
    exact List.append_nil _
  short o' ho := by
    cases ho
    exact hshort
  nothing n hn := by
    have hother : x.number ≠ n := hnumber ▸ (h.ne_exchanges hn).symm
    rw [Act.backendBytes_append, h.nothing n hn, Act.backendBytes_toBackend_ne hother]
    rfl

/-- The rest of the request of the last exchange is sent on, and its body is consumed. -/
theorem Isolated.sendAll {o : Opening} {bs body rest : List UInt8} (h : Isolated c client k acts ms (some o))
    (hnumber : x.number = k.exchanges) (hsent : Act.backendBytes k.exchanges acts ++ bs = o.head.raw ++ body)
    (hs : k.client.unread = body ++ rest) (hbody : ∀ ending rest, o.head.framing.Delimits ending body rest)
    (m : Moment) (tap : Http.Tap) (p : Phase) :
    Isolated c client { k with client := { k.client with unread := rest }, phase := p }
      (acts ++ [.toBackend x.number bs, .tell (k.requestEvent c m x tap)]) (ms ++ [⟨o, body⟩]) none where
  stream := by
    have hstream := h.stream.consume hs
    simpa [Opening.bytes, Piece.bytes, Piece.sent] using hstream
  good m hm := by
    rcases List.mem_append.1 hm with hold | hnew
    · exact h.good m hold
    · obtain rfl := List.mem_singleton.1 hnew
      exact ⟨h.begun o rfl, hbody⟩
  begun := nofun
  exchanges := by simp [h.exchanges]
  connects := by
    rw [Act.connects_append, h.connects]
    exact List.append_nil _
  told := by
    have hlast : 1 + ms.length = k.exchanges := by rw [h.exchanges, Nat.add_comm]; rfl
    have hid : Act.requestIds [.toBackend x.number bs, .tell (k.requestEvent c m x tap)] = [k.exchangeId k.exchanges] := by
      rw [← hnumber]
      rfl
    rw [Act.requestIds_append, hid, h.told, List.length_append, List.length_singleton, List.range'_1_concat, hlast,
      List.map_append]
    rfl
  whole i m hm := by
    rw [Act.backendBytes_append]
    rcases getElem?_concat_cases hm with hm | ⟨rfl, rfl⟩
    · have hother : x.number ≠ i + 1 := hnumber ▸ (h.succ_ne hm).symm
      rw [h.whole i m hm, Act.backendBytes_toBackend_ne hother]
      exact List.append_nil _
    · have hlast : ms.length + 1 = k.exchanges := h.exchanges.symm
      rw [hlast, Act.backendBytes_toBackend_self hnumber, ← List.append_assoc, hsent]
      exact List.append_nil _
  short := nofun
  nothing n hn := by
    have hother : x.number ≠ n := hnumber ▸ (h.ne_exchanges hn).symm
    rw [Act.backendBytes_append, h.nothing n hn, Act.backendBytes_toBackend_ne hother]
    rfl

/-! ## Moves -/

theorem Course.Sending.underway {sent : Nat} (h : s.Sending c last) (hsends : s.connection.phase.Sends x sent) :
    s.Underway c last x sent := by
  unfold Course.Sending at h
  generalize s.connection.phase = p at h hsends
  cases hsends <;> exact h

/-- What has been sent of a request and what is due are the request, as far as it has come. -/
theorem Course.Underway.append_due {sent : Nat} (h : s.Underway c last x sent) :
    Act.backendBytes s.connection.exchanges s.acts ++ s.due c x sent = x.request.raw ++ (s.request c x).passed := by
  obtain ⟨due, hdue⟩ := h.front s.connection.client (List.prefix_refl _)
  have hrequest : Act.backendBytes s.connection.exchanges s.acts ++ due = x.request.raw ++ (s.request c x).passed := hdue
  unfold Course.due
  rw [← hrequest, ← h.length, List.drop_left]

/-- A part of what has come of a request is less than all of it, unless its body is known to be whole. -/
theorem short_of_prefix {head : RequestHead} {max preview : Nat} {i : Inlet} {bs : List UInt8} (hfits : head.Fits max)
    (hbs : bs <+: head.raw ++ (Transfer.ofInlet preview head.framing i).passed)
    (h : bs = head.raw ++ (Transfer.ofInlet preview head.framing i).passed →
      ∀ rest, (Transfer.ofInlet preview head.framing i).standing ≠ .whole rest) : Short head i.unread bs where
  front := hbs.trans ((List.prefix_append_right_inj _).2 (Transfer.passed_prefix preview head.framing i))
  less more body rest ending hs hbody := by
    have hpassed : (Transfer.ofInlet preview head.framing i).passed <+: body :=
      Transfer.passed_prefix_of_delimits hfits.framing_ne_untilClose ⟨more, hs⟩ hbody
    refine ⟨hbs.trans ((List.prefix_append_right_inj _).2 hpassed), ?_⟩
    rintro rfl
    -- then all of the body has been passed on, and it is known to be whole
    have heq : body = (Transfer.ofInlet preview head.framing i).passed :=
      ((List.prefix_append_right_inj _).1 hbs).eq_of_length_le hpassed.length_le
    obtain ⟨rest', hrest⟩ := Transfer.passed_prefix preview head.framing i
    rw [← heq] at hrest
    have hwhole := Transfer.whole_of_delimits (n := preview) hrest.symm (hbody.of_ne_untilClose hfits.framing_ne_untilClose)
    exact h (congrArg (head.raw ++ ·) heq) rest' hwhole.2

/-- Nothing of a request is left to be sent on. -/
def Phase.IsSettled : Phase → Prop
  | .connecting .. => False
  | .sending .. => False
  | .closed => False
  | _ => True

theorem Phase.isSettled_between {p : Phase} (h : p = .idle ∨ p = .reading) : p.IsSettled := by
  rcases h with rfl | rfl
  · trivial
  · trivial

theorem Course.Sending.eq_none (h : s.Sending c last) (hp : s.connection.phase.IsSettled) : last = none := by
  unfold Course.Sending at h
  cases hphase : s.connection.phase <;> rw [hphase] at h hp <;> first | exact h | cases hp

theorem Course.sending_none (hp : s.connection.phase.IsSettled) : s.Sending c none := by
  unfold Course.Sending
  cases hphase : s.connection.phase <;> rw [hphase] at hp <;> first | rfl | cases hp

/-- Of no concern to requests. -/
theorem Course.RequestsHold.facing {p : Phase} (h : s.RequestsHold c) (hs : s.connection.phase.IsSettled) (hp : p.IsSettled)
    (hnew : ∀ a ∈ new, a.FacesClient) : (s.enter p new).RequestsHold c := by
  obtain ⟨ms, last, hiso, hsending, hheads⟩ := h
  obtain rfl := hsending.eq_none hs
  exact ⟨ms, none, hiso.facing hnew p, Course.sending_none hp, hheads⟩

theorem Course.Underway.hear {sent : Nat} (h : s.Underway c last x sent) (e : Happening) :
    (s.hear e).Underway c last x sent where
  number := h.number
  last := h.last
  length := h.length
  front i hi := h.front i ((e.unread_atClient _).trans hi)

theorem Course.Sending.hear (h : s.Sending c last) (e : Happening) : (s.hear e).Sending c last := by
  have hphase : (s.hear e).connection.phase = s.connection.phase.hear e := rfl
  unfold Course.Sending at h ⊢
  rw [hphase]
  cases hp : s.connection.phase with
  | connecting x room =>
    rw [hp] at h
    exact Course.Underway.hear h e
  | sending x sent room =>
    rw [hp] at h
    exact Course.Underway.hear h e
  | _ =>
    rw [hp] at h
    exact h

theorem Course.RequestsHold.hear (h : s.RequestsHold c) (e : Happening) : (s.hear e).RequestsHold c := by
  obtain ⟨ms, last, hiso, hsending, hheads⟩ := h
  exact ⟨ms, last, hiso.hear e _, hsending.hear e, hheads⟩

theorem Course.RequestsHold.begin {blank rest : List UInt8} {head : RequestHead} (h : s.RequestsHold c) (started : Nat)
    (hs : s.connection.phase.IsSettled) (hblank : IsBlank blank) (hfits : head.Fits c.settings.maxHeadBytes)
    (hbytes : s.connection.client.unread = blank ++ (head.raw ++ rest)) :
    Course.RequestsHold c
      { s with
        connection := { s.connection with
          client := { s.connection.client with unread := rest }
          exchanges := s.connection.exchanges + 1
          phase := .connecting ⟨s.connection.exchanges + 1, head, started, .fresh⟩ none }
        acts := s.acts ++ [.connect (s.connection.exchanges + 1)]
        heads := s.heads ++ [head] } := by
  obtain ⟨ms, last, hiso, hsending, hheads⟩ := h
  obtain rfl := hsending.eq_none hs
  have hnothing : Act.backendBytes (s.connection.exchanges + 1) (s.acts ++ [.connect (s.connection.exchanges + 1)]) = [] := by
    rw [Act.backendBytes_append, hiso.nothing _ (.inr (Nat.lt_succ_self _))]
    rfl
  refine ⟨ms, some ⟨blank, head⟩, hiso.begin hblank hfits hbytes _, ⟨rfl, rfl, ?_, fun i _ => ?_⟩, ?_⟩
  · exact congrArg List.length hnothing
  · exact hnothing ▸ List.nil_prefix
  · rw [hheads]
    simp

theorem Course.RequestsHold.sendPart {sent : Nat} {bs : List UInt8} (h : s.RequestsHold c) (room : Option Nat)
    (hsends : s.connection.phase.Sends x sent) (hbs : bs <+: s.due c x sent)
    (hpart : bs = s.due c x sent → ∀ rest, (s.request c x).standing ≠ .whole rest) :
    (s.enter (.sending x (sent + bs.length) room) [.toBackend x.number bs]).RequestsHold c := by
  obtain ⟨ms, last, hiso, hsending, hheads⟩ := h
  have hunder := hsending.underway hsends
  obtain ⟨o, rfl, ho⟩ := Option.map_eq_some_iff.1 hunder.last
  have hsent : Act.backendBytes s.connection.exchanges (s.acts ++ [.toBackend x.number bs]) =
      Act.backendBytes s.connection.exchanges s.acts ++ bs := by
    rw [Act.backendBytes_append, Act.backendBytes_toBackend_self hunder.number]
    exact congrArg _ (List.append_nil bs)
  have hfront : Act.backendBytes s.connection.exchanges s.acts ++ bs <+: x.request.raw ++ (s.request c x).passed := by
    rw [← hunder.append_due]
    exact (List.prefix_append_right_inj _).2 hbs
  have hshort : Short o.head s.connection.client.unread
      (Act.backendBytes s.connection.exchanges (s.acts ++ [.toBackend x.number bs])) := by
    have hfits := (hiso.begun o rfl).head
    rw [ho] at hfits
    rw [hsent, ho]
    refine short_of_prefix hfits hfront fun heq => hpart ?_
    exact List.append_cancel_left (heq.trans hunder.append_due.symm)
  refine ⟨ms, some o, hiso.sendPart hunder.number hshort _, ⟨hunder.number, hunder.last, ?_, fun i hi => ?_⟩, hheads⟩
  · show (Act.backendBytes s.connection.exchanges (s.acts ++ [.toBackend x.number bs])).length = _
    rw [hsent, List.length_append, hunder.length]
  · show Act.backendBytes s.connection.exchanges (s.acts ++ [.toBackend x.number bs]) <+: _
    rw [hsent]
    exact hfront.trans ((List.prefix_append_right_inj _).2 (Transfer.passed_mono _ _ hi))

theorem Course.RequestsHold.sendAll {sent : Nat} {rest : List UInt8} (h : s.RequestsHold c) (m : Moment)
    (hsends : s.connection.phase.Sends x sent) (hstanding : (s.request c x).standing = .whole rest) :
    ((s.consume rest).enter (.awaiting x false)
      [.toBackend x.number (s.due c x sent), .tell (s.connection.requestEvent c m x (s.request c x).tap)]).RequestsHold c := by
  obtain ⟨ms, last, hiso, hsending, hheads⟩ := h
  have hunder := hsending.underway hsends
  obtain ⟨o, rfl, ho⟩ := Option.map_eq_some_iff.1 hunder.last
  obtain ⟨hbytes, hbody⟩ := Transfer.delimits_of_whole hstanding
  have hsent : Act.backendBytes s.connection.exchanges s.acts ++ s.due c x sent = o.head.raw ++ (s.request c x).passed := by
    rw [ho]
    exact hunder.append_due
  have hwhole : ∀ ending rest, o.head.framing.Delimits ending (s.request c x).passed rest := fun ending rest => by
    have hframing := (hiso.begun o rfl).head.framing_ne_untilClose
    rw [ho] at hframing ⊢
    exact hbody.of_ne_untilClose hframing
  have hiso' := hiso.sendAll hunder.number hsent hbytes hwhole m (s.request c x).tap (.awaiting x false)
  refine ⟨ms ++ [Piece.mk o (s.request c x).passed], none, hiso', rfl, ?_⟩
  show s.heads = _
  rw [hheads]
  simp

/-- **What holds of requests holds after each move.** -/
theorem Course.RequestsHold.move {t : Course} (h : s.RequestsHold c) (hmove : Move c s t) : t.RequestsHold c := by
  cases hmove with
  | hear e => exact h.hear e
  | wait hphase => exact h.facing (Phase.isSettled_between hphase) trivial (by simp)
  | begin started hphase hblank hfits hbytes =>
    exact h.begin started (Phase.isSettled_between hphase) hblank hfits hbytes
  | sendPart room hsends hbs hpart => exact h.sendPart room hsends hbs hpart
  | sendAll m hsends hstanding => exact h.sendAll m hsends hstanding
  | interim hphase => exact h.facing (by rw [hphase]; trivial) trivial (by simp [Act.FacesClient])
  | final hphase => exact h.facing (by rw [hphase]; trivial) trivial (by simp [Act.FacesClient])
  | passBody hphase => exact h.facing (by rw [hphase]; trivial) trivial (by simp [Act.FacesClient])
  | done m hphase =>
    exact h.facing (by rw [hphase]; trivial) trivial (by simp [Act.FacesClient, Act.IsMute, Connection.responseEvent])
  | finish hends =>
    obtain ⟨ms, last, hiso, -, hheads⟩ := h
    exact ⟨ms, last, hiso.facing (fun a ha => Act.facesClient_of_isMute (hends.isMute a ha)) .closed, trivial, hheads⟩
  | answer m g hphase =>
    obtain ⟨ms, last, hiso, -, hheads⟩ := h
    refine ⟨ms, last, hiso.facing (fun a ha => ?_) .closed, trivial, hheads⟩
    rcases List.mem_cons.1 ha with rfl | hrest
    · trivial
    · exact Act.facesClient_of_isMute (Connection.isMute_answered m _ _ g a hrest)

end Moves

/-! ## Runs -/

theorem Course.requestsHold_fresh (c : Context) (number : Nat) (peer : String) :
    (Course.fresh number peer).RequestsHold c := by
  refine ⟨[], none, ?_, rfl, rfl⟩
  exact ⟨.refl _, nofun, nofun, rfl, rfl, rfl, nofun, nofun, fun _ _ => rfl⟩

theorem Connection.exchangeId_inj (k : Connection) {a b : Nat} (h : k.exchangeId a = k.exchangeId b) : a = b := by
  unfold exchangeId at h
  have hlist := congrArg String.toList h
  rw [String.toList_append, String.toList_append (s := Numeral.text k.number ++ "-")] at hlist
  exact Numeral.text_inj (String.toList_injective (List.append_cancel_left hlist))

/-- **Requests never mix.**  However the client's bytes come and whatever the backends do, the exchanges of a connection send on
the requests of the client's stream, each on a backend connection of its own, all of it just when the event of the request is
told; only the last may stop short, and a connection that goes on with the next one has consumed all of the requests before. -/
theorem requests_isolated (c : Context) (number : Nat) (peer : String) (hs : List (Moment × Happening)) :
    let r := (Connection.fresh number peer).run c hs
    ∃ ms last, Isolated c (Connection.fromClient hs) r.1 r.2 ms last ∧
      (r.1.phase = .idle ∨ r.1.phase = .reading → last = none) ∧
      ∀ n, r.1.exchangeId n ∈ Act.requestIds r.2 ↔ 1 ≤ n ∧ n ≤ ms.length := by
  intro r
  obtain ⟨heads, ms, last, hiso, hsending, -⟩ := Connection.run_of_moves c number peer hs
    (Course.requestsHold_fresh c number peer) fun s t hmove h => h.move hmove
  refine ⟨ms, last, hiso, fun hphase => hsending.eq_none (Phase.isSettled_between hphase), fun n => ?_⟩
  rw [hiso.told, List.mem_map]
  constructor
  · rintro ⟨m, hm, heq⟩
    obtain rfl := Connection.exchangeId_inj _ heq
    rw [List.mem_range'_1] at hm
    omega
  · rintro ⟨hone, hle⟩
    refine ⟨n, ?_, rfl⟩
    rw [List.mem_range'_1]
    omega

end Relay
end SearchTelemetry
