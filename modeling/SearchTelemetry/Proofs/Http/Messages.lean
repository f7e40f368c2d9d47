import SearchTelemetry.Http.Stream
import SearchTelemetry.Proofs.Http.FirstHead
import SearchTelemetry.Proofs.Http.Segments
/-!
# Http.Messages — a stream is its messages, one behind the other

Requests and responses are read alike, each with its own reader of heads (`HeadReader`).  The messages that are read divide
the stream: empty lines, a head, its body, and so on, and nothing else (`HeadReader.divides_messages`).  There are no more of
them just where no head follows that can be read, and the bytes that are left say why (`NoMessage`).  The messages are the same
wherever the stream is cut (`messages_congr`), and a message stays the same when other bytes follow it
(`messages_of_prefix`).
-/
namespace SearchTelemetry
namespace Http

/-! ## Where no message follows -/

/-- Why no message is read from these bytes, if they are all there is of a stream that ends so.  A head has at most `max`
bytes; what is said of a stream with nothing left in it is `exhausted`. -/
inductive NoMessage {α : Type} (max : Nat) (parse : List UInt8 → Except Fault α) (exhausted : StreamEnd) :
    Ending → List UInt8 → StreamEnd → Prop where
  /-- The stream closes, and nothing is left of it but empty lines. -/
  | spent {bs : List UInt8} : behindBlank bs = [] → NoMessage max parse exhausted .closed bs exhausted
  /-- The stream closes inside a head. -/
  | cut {bs : List UInt8} : (¬∃ h, IsFirstHead h (behindBlank bs)) → behindBlank bs ≠ [] → (behindBlank bs).length ≤ max →
      NoMessage max parse exhausted .closed bs (.refused headCut)
  /-- The rest of a head may still come. -/
  | waits {bs : List UInt8} : (¬∃ h, IsFirstHead h (behindBlank bs)) → (behindBlank bs).length ≤ max →
      NoMessage max parse exhausted .quiet bs .quiet
  /-- The next head is not over within the limit. -/
  | tooLong {ending : Ending} {bs : List UInt8} : (∀ h, IsFirstHead h (behindBlank bs) → max < h.length) →
      max < (behindBlank bs).length → NoMessage max parse exhausted ending bs (.refused (headTooLong max))
  /-- The next head is none of a message. -/
  | malformed {ending : Ending} {bs h : List UInt8} {fault : Fault} : IsFirstHead h (behindBlank bs) → h.length ≤ max →
      parse h = .error fault → NoMessage max parse exhausted ending bs (.refused fault)

/-- Why there is no next message. -/
def Reading.noMessage {α : Type} : Reading α → Option StreamEnd
  | .message .. => none
  | .closed => some .closed
  | .quiet => some .quiet
  | .refused fault => some (.refused fault)

namespace Reading

variable {α : Type} {r : Reading α}

theorem closed_of_noMessage (h : r.noMessage = some .closed) : r = .closed := by
  cases r <;> first | rfl | cases h

theorem noMessage_flat (r : Reading α) : r.flat.noMessage = r.noMessage := by
  cases r <;> rfl

end Reading

section NoMessage

variable {α : Type} {max : Nat} {parse : List UInt8 → Except Fault α} {exhausted e : StreamEnd} {ending : Ending}
  {bs : List UInt8} {s : Source}

theorem NoMessage.of_closed (h : NoMessage max parse .closed ending bs .closed) :
    NoMessage max parse exhausted ending bs exhausted := by
  cases h with
  | spent hnil => exact .spent hnil

theorem NoMessage.of_ne_closed (h : NoMessage max parse .closed ending bs e) (he : e ≠ .closed) :
    NoMessage max parse exhausted ending bs e := by
  cases h with
  | spent => exact absurd rfl he
  | cut hnone hne hlen => exact .cut hnone hne hlen
  | waits hnone hlen => exact .waits hnone hlen
  | tooLong hlong hover => exact .tooLong hlong hover
  | malformed hfirst hlen hparse => exact .malformed hfirst hlen hparse

/-- **A reader of heads stops only where there is no head for it**, and says why. -/
theorem noMessage_of_andThen (hmax : 2 ≤ max) (h : ((readHead max s).andThen parse).noMessage = some e) :
    NoMessage max parse .closed s.ending s.bytes e := by
  by_cases hfit : ∃ raw, IsFirstHead raw (behindBlank s.bytes) ∧ raw.length ≤ max
  · obtain ⟨raw, hfirst, hlen⟩ := hfit
    obtain ⟨rest, hread, -⟩ := readHead_of_isFirstHead hfirst hlen
    rw [hread] at h
    unfold Reading.andThen at h
    dsimp only at h
    cases hparse : parse raw with
    | ok a => rw [hparse] at h; cases h
    | error fault =>
      rw [hparse] at h
      cases h
      exact .malformed hfirst hlen hparse
  · have hlong : ∀ raw, IsFirstHead raw (behindBlank s.bytes) → max < raw.length := fun raw hfirst =>
      Nat.lt_of_not_le fun hle => hfit ⟨raw, hfirst, hle⟩
    rcases stops_of_no_head hmax hlong with ⟨hlen, hread⟩ | ⟨hread, taken, htaken, hover⟩
    · have hnone : ¬∃ raw, IsFirstHead raw (behindBlank s.bytes) := by
        rintro ⟨raw, hfirst⟩
        exact hfit ⟨raw, hfirst, hfirst.front.length_le.trans hlen⟩
      rw [hread] at h
      cases hending : s.ending with
      | quiet =>
        rw [hending] at h
        cases h
        exact .waits hnone hlen
      | closed =>
        rw [hending] at h
        by_cases hnil : behindBlank s.bytes = []
        · rw [hnil] at h
          cases h
          exact .spent hnil
        · rw [headAtEnd_closed hnil] at h
          cases h
          exact .cut hnone hnil hlen
    · rw [hread] at h
      cases h
      refine .tooLong hlong ?_
      rw [htaken, List.length_append]
      omega

theorem RequestHead.noMessage_of_read (hmax : 2 ≤ max) (h : (read max s).noMessage = some e) :
    NoMessage max ofBytes .closed s.ending s.bytes e :=
  noMessage_of_andThen hmax h

/-- To one who waits for a response, a stream that closes before it is a fault of the backend. -/
theorem ResponseHead.noMessage_of_read {method : String} (hmax : 2 ≤ max) (h : (read max method s).noMessage = some e) :
    NoMessage max (ofBytes method) (.refused (.backendUnavailable "upstream closed without responding")) s.ending s.bytes
      e := by
  unfold read at h
  split at h
  · rename_i hclosed
    cases h
    exact (noMessage_of_andThen hmax (congrArg Reading.noMessage hclosed)).of_closed
  · rename_i hopen
    refine (noMessage_of_andThen hmax h).of_ne_closed ?_
    rintro rfl
    exact hopen (Reading.closed_of_noMessage h)

end NoMessage

/-! ## Readers of heads -/

/-- How the next head is read from a stream, in view of what is known of the messages to come. -/
structure HeadReader (ι α : Type) where
  read : ι → Source → Reading α
  /-- What is known of the messages behind the next one. -/
  next : ι → ι
  raw : α → List UInt8
  framing : α → Framing
  /-- The heads that are read. -/
  fits : ι → α → Prop
  /-- Why no message follows in these bytes, at the end of a stream. -/
  stops : ι → Ending → List UInt8 → StreamEnd → Prop
  isHead : ∀ {i a}, fits i a → IsHead (raw a)
  front : ∀ {i s a rest}, read i s = .message a rest →
    fits i a ∧ ∃ blank, IsBlank blank ∧ s.bytes = blank ++ (raw a ++ rest.bytes) ∧ rest.ending = s.ending
  again : ∀ {i s a blank tail}, fits i a → IsBlank blank → s.bytes = blank ++ (raw a ++ tail) →
    ∃ rest, rest.bytes = tail ∧ rest.ending = s.ending ∧ read i s = .message a rest
  stopped : ∀ {i s e}, (read i s).noMessage = some e → stops i s.ending s.bytes e
  congr : ∀ {i s t}, s.flat = t.flat → (read i s).flat = (read i t).flat

/-- The reader of requests. -/
def requestReader {max : Nat} (hmax : 2 ≤ max) : HeadReader Unit RequestHead where
  read _ := RequestHead.read max
  next _ := ()
  raw := RequestHead.raw
  framing := RequestHead.framing
  fits _ := RequestHead.Fits max
  stops _ := NoMessage max RequestHead.ofBytes .closed
  isHead h := h.isHead
  front := RequestHead.read_message
  again := RequestHead.read_of_fits
  stopped := RequestHead.noMessage_of_read hmax
  congr := RequestHead.read_congr

/-- The reader of responses to requests with these methods. -/
def responseReader {max : Nat} (hmax : 2 ≤ max) : HeadReader (List String) ResponseHead where
  read methods := ResponseHead.read max (nextMethod methods).1
  next methods := (nextMethod methods).2
  raw := ResponseHead.raw
  framing := ResponseHead.framing
  fits methods := ResponseHead.Fits max (nextMethod methods).1
  stops methods := NoMessage max (ResponseHead.ofBytes (nextMethod methods).1)
    (.refused (.backendUnavailable "upstream closed without responding"))
  isHead h := h.isHead
  front := ResponseHead.read_message
  again := ResponseHead.read_of_fits
  stopped := ResponseHead.noMessage_of_read hmax
  congr := ResponseHead.read_congr

namespace HeadReader

variable {ι α : Type} (r : HeadReader ι α)

/-- A head and a body behind it leave less of the stream. -/
theorem size_lt {i : ι} {s rest : Source} {head : α} {framing : Framing} {p : Passage} {sink : Sink} {tap : Tap}
    (hread : r.read i s = .message head rest) (hrelay : Passage.relay none ⟨rest, sink, tap⟩ framing = .ok p) :
    p.source.size < s.size := by
  obtain ⟨hfits, blank, -, hs, -⟩ := r.front hread
  have hpos := List.length_pos_iff.2 (r.isHead hfits).ne_nil
  have hle : p.source.size ≤ rest.size := Passage.size_relay hrelay
  rw [← Source.length_bytes s, hs, List.length_append, List.length_append, Source.length_bytes]
  omega

/-- The messages of a stream, with so many bytes of each body kept for a look, and why there are no more. -/
def messages (tap : Nat) (i : ι) (s : Source) : List (Delivery α) × StreamEnd :=
  match _ : r.read i s with
  | .closed => ([], .closed)
  | .quiet => ([], .quiet)
  | .refused fault => ([], .refused fault)
  | .message head rest =>
    match _ : Passage.relay none ⟨rest, .ofRoom none, .ofLimit tap⟩ (r.framing head) with
    | .ok p =>
      let behind := messages tap (r.next i) p.source
      (⟨head, p, none⟩ :: behind.1, behind.2)
    | .error e => ([⟨head, e.passage, some e.fault⟩], .cutShort)
termination_by s.size
decreasing_by exact r.size_lt ‹_› ‹_›

variable {r} {tap : Nat} {i : ι} {s t rest : Source} {head : α} {p : Passage} {e : StreamEnd} {f : Failure}

theorem messages_of_noMessage (h : (r.read i s).noMessage = some e) : r.messages tap i s = ([], e) := by
  rw [messages]
  split
  all_goals
    rename_i hread
    rw [hread] at h
    cases h
    try rfl

theorem messages_of_message (hread : r.read i s = .message head rest) :
    r.messages tap i s =
      match Passage.relay none ⟨rest, .ofRoom none, .ofLimit tap⟩ (r.framing head) with
      | .ok p => (⟨head, p, none⟩ :: (r.messages tap (r.next i) p.source).1, (r.messages tap (r.next i) p.source).2)
      | .error f => ([⟨head, f.passage, some f.fault⟩], .cutShort) := by
  rw [messages]
  split
  · rename_i h
    cases hread.symm.trans h
  · rename_i h
    cases hread.symm.trans h
  · rename_i h
    cases hread.symm.trans h
  · rename_i head' rest' h
    cases hread.symm.trans h
    split
    · rename_i p hp
      rw [hp]
    · rename_i f hf
      rw [hf]

theorem messages_of_ok (hread : r.read i s = .message head rest)
    (hrelay : Passage.relay none ⟨rest, .ofRoom none, .ofLimit tap⟩ (r.framing head) = .ok p) :
    r.messages tap i s =
      (⟨head, p, none⟩ :: (r.messages tap (r.next i) p.source).1, (r.messages tap (r.next i) p.source).2) := by
  rw [messages_of_message hread, hrelay]

theorem messages_of_error (hread : r.read i s = .message head rest)
    (hrelay : Passage.relay none ⟨rest, .ofRoom none, .ofLimit tap⟩ (r.framing head) = .error f) :
    r.messages tap i s = ([⟨head, f.passage, some f.fault⟩], .cutShort) := by
  rw [messages_of_message hread, hrelay]

end HeadReader

theorem requestsLoop_eq (limits : Limits) (hmax : 2 ≤ limits.maxHead) (hroom : limits.room = none)
    (acc : List (Delivery RequestHead)) (s : Source) :
    requestsLoop limits acc s =
      (acc.reverse ++ ((requestReader hmax).messages limits.tap () s).1,
        ((requestReader hmax).messages limits.tap () s).2) := by
  fun_induction requestsLoop limits acc s with
  | case1 acc s h =>
    have hread : ((requestReader hmax).read () s).noMessage = some .closed := congrArg Reading.noMessage h
    rw [HeadReader.messages_of_noMessage hread, List.append_nil]
  | case2 acc s h =>
    have hread : ((requestReader hmax).read () s).noMessage = some .quiet := congrArg Reading.noMessage h
    rw [HeadReader.messages_of_noMessage hread, List.append_nil]
  | case3 acc s fault h =>
    have hread : ((requestReader hmax).read () s).noMessage = some (.refused fault) :=
      congrArg Reading.noMessage h
    rw [HeadReader.messages_of_noMessage hread, List.append_nil]
  | case4 acc s head rest h p hp ih =>
    have hread : (requestReader hmax).read () s = .message head rest := h
    rw [hroom] at hp
    rw [HeadReader.messages_of_ok hread hp, ih, List.reverse_cons, List.append_assoc]
    rfl
  | case5 acc s head rest h e he =>
    have hread : (requestReader hmax).read () s = .message head rest := h
    rw [hroom] at he
    rw [HeadReader.messages_of_error hread he, List.reverse_cons]

theorem responsesLoop_eq (limits : Limits) (hmax : 2 ≤ limits.maxHead) (hroom : limits.room = none)
    (methods : List String) (acc : List (Delivery ResponseHead)) (s : Source) :
    responsesLoop limits methods acc s =
      (acc.reverse ++ ((responseReader hmax).messages limits.tap methods s).1,
        ((responseReader hmax).messages limits.tap methods s).2) := by
  fun_induction responsesLoop limits methods acc s with
  | case1 methods acc s h => exact absurd h ResponseHead.read_ne_closed
  | case2 methods acc s h =>
    have hread : ((responseReader hmax).read methods s).noMessage = some .quiet :=
      congrArg Reading.noMessage h
    rw [HeadReader.messages_of_noMessage hread, List.append_nil]
  | case3 methods acc s fault h =>
    have hread : ((responseReader hmax).read methods s).noMessage = some (.refused fault) :=
      congrArg Reading.noMessage h
    rw [HeadReader.messages_of_noMessage hread, List.append_nil]
  | case4 methods acc s head rest h p hp ih =>
    have hread : (responseReader hmax).read methods s = .message head rest := h
    rw [hroom] at hp
    rw [HeadReader.messages_of_ok hread hp, ih, List.reverse_cons, List.append_assoc]
    rfl
  | case5 methods acc s head rest h e he =>
    have hread : (responseReader hmax).read methods s = .message head rest := h
    rw [hroom] at he
    rw [HeadReader.messages_of_error hread he, List.reverse_cons]

/-! ## How messages divide a stream -/

namespace Delivery

variable {α : Type}

/-- What has been passed on of the body. -/
def body (d : Delivery α) : List UInt8 :=
  d.passage.sink.written

/-- What stands behind the message. -/
def behind (d : Delivery α) : List UInt8 :=
  d.passage.source.bytes

/-- The message without what stands behind it. -/
def message (d : Delivery α) : α × Sink × Tap × Option RelayFault :=
  (d.head, d.passage.sink, d.passage.tap, d.fault)

end Delivery

namespace HeadReader

variable {ι α : Type} {r : HeadReader ι α} {tap : Nat} {i : ι} {s t rest : Source} {e : StreamEnd}

/-- These messages divide the bytes of a stream.  Each is a head that fits with empty lines in front and its body behind it.
Only the last message may have been passed on in part: then the bytes hold no whole body, and what there is of it has been
passed on.  Otherwise what is left is no message, and the reader says why. -/
inductive Divides (r : HeadReader ι α) (ending : Ending) : ι → List (Delivery α) → StreamEnd → List UInt8 → Prop where
  | nil {i : ι} {e : StreamEnd} {tail : List UInt8} : r.stops i ending tail e → Divides r ending i [] e tail
  | whole {i : ι} {d : Delivery α} {ds : List (Delivery α)} {e : StreamEnd} {blank : List UInt8} :
      IsBlank blank → r.fits i d.head → d.fault = none → (r.framing d.head).Delimits ending d.body d.behind →
      Divides r ending (r.next i) ds e d.behind →
      Divides r ending i (d :: ds) e (blank ++ (r.raw d.head ++ (d.body ++ d.behind)))
  | part {i : ι} {d : Delivery α} {blank tail : List UInt8} :
      IsBlank blank → r.fits i d.head → d.fault ≠ none → (r.framing d.head).BreaksOff ending tail d.body →
      (∀ body behind, tail = body ++ behind → ¬(r.framing d.head).Delimits ending body behind) →
      Divides r ending i [d] .cutShort (blank ++ (r.raw d.head ++ tail))

/-- **The messages that are read divide the stream.** -/
theorem divides_messages (r : HeadReader ι α) (tap : Nat) (i : ι) (s : Source) :
    r.Divides s.ending i (r.messages tap i s).1 (r.messages tap i s).2 s.bytes := by
  fun_induction messages r tap i s with
  | case1 i s h => exact .nil (r.stopped (congrArg Reading.noMessage h))
  | case2 i s h => exact .nil (r.stopped (congrArg Reading.noMessage h))
  | case3 i s fault h => exact .nil (r.stopped (congrArg Reading.noMessage h))
  | case4 i s head rest hread p hp behind ih =>
    have hopen := Passage.isOpen_start tap rest
    obtain ⟨hfits, blank, hblank, hs, hend⟩ := r.front hread
    obtain ⟨body, hbody, hpass⟩ := Passage.relay_ok hopen hp
    have hwritten : p.sink.written = body := hpass.written hopen
    have hpend : p.source.ending = s.ending := hpass.ending.trans hend
    have hbytes : rest.bytes = p.sink.written ++ p.source.bytes := hwritten ▸ hpass.bytes
    rw [hs, hbytes]
    rw [hpend] at ih
    refine .whole hblank hfits rfl ?_ ih
    rw [← hend, Delivery.body, hwritten]
    exact hbody
  | case5 i s head rest hread f hf =>
    have hopen := Passage.isOpen_start tap rest
    have hrelay : Passage.relay none (.start tap rest) (r.framing head) = .error f := hf
    obtain ⟨hfits, blank, hblank, hs, hend⟩ := r.front hread
    obtain ⟨part, hpart, hreach⟩ := Passage.relay_error hopen hrelay
    have hwritten : f.passage.sink.written = part := hreach.written hopen
    rw [hs]
    refine .part hblank hfits nofun ?_ fun body behind hsplit hbody => ?_
    · rw [Delivery.body, hwritten, ← hend]
      exact hpart
    · rw [← hend] at hbody
      obtain ⟨q, -, hq⟩ := Passage.relay_of_delimits none hopen hsplit hbody
      cases hrelay.symm.trans hq

theorem Divides.bytes_ne_nil {ending : Ending} {ds : List (Delivery α)} {bs : List UInt8}
    (h : r.Divides ending i ds e bs) (hds : ds ≠ []) : bs ≠ [] := by
  cases h with
  | nil => exact absurd rfl hds
  | whole _ hfits =>
    intro hnil
    exact (r.isHead hfits).ne_nil (List.append_eq_nil_iff.1 (List.append_eq_nil_iff.1 hnil).2).1
  | part _ hfits =>
    intro hnil
    exact (r.isHead hfits).ne_nil (List.append_eq_nil_iff.1 (List.append_eq_nil_iff.1 hnil).2).1

/-- What stands behind a message is the end of the stream. -/
theorem Divides.behind_suffix {ending : Ending} {d : Delivery α} {ds : List (Delivery α)} {bs : List UInt8}
    (h : r.Divides ending i ds e bs) (hd : d ∈ ds) (hfault : d.fault = none) : d.behind <:+ bs := by
  induction h with
  | nil => cases hd
  | @whole i d0 ds e blank hblank hfits hwhole hbody hrest ih =>
    have hsuffix : d0.behind <:+ blank ++ (r.raw d0.head ++ (d0.body ++ d0.behind)) :=
      ⟨blank ++ (r.raw d0.head ++ d0.body), by simp⟩
    rcases List.mem_cons.1 hd with rfl | hmem
    · exact hsuffix
    · exact (ih hmem).trans hsuffix
  | part hblank hfits hpart =>
    obtain rfl := List.mem_singleton.1 hd
    exact absurd hfault hpart

/-! ## Where a stream is cut, and what follows a message -/

theorem read_congr (r : HeadReader ι α) (h : s.flat = t.flat) {head : α} (hread : r.read i s = .message head rest) :
    ∃ rest', r.read i t = .message head rest' ∧ rest.flat = rest'.flat := by
  have hflat := r.congr (i := i) h
  rw [hread] at hflat
  cases ht : r.read i t with
  | message head' rest' =>
    rw [ht] at hflat
    obtain ⟨rfl, hrest⟩ := Reading.message.inj hflat
    exact ⟨rest', rfl, hrest⟩
  | closed => rw [ht] at hflat; cases hflat
  | quiet => rw [ht] at hflat; cases hflat
  | refused fault => rw [ht] at hflat; cases hflat

theorem noMessage_congr (r : HeadReader ι α) (h : s.flat = t.flat) : (r.read i s).noMessage = (r.read i t).noMessage := by
  rw [← Reading.noMessage_flat, r.congr h, Reading.noMessage_flat]

/-- **Where a stream is cut has no effect on its messages.** -/
theorem messages_congr (h : s.flat = t.flat) :
    (r.messages tap i s).1.map Delivery.message = (r.messages tap i t).1.map Delivery.message ∧
      (r.messages tap i s).2 = (r.messages tap i t).2 := by
  fun_induction messages r tap i s generalizing t with
  | case1 i s hread =>
    have hnone := r.noMessage_congr (i := i) h
    rw [hread] at hnone
    rw [messages_of_noMessage hnone.symm]
    exact ⟨rfl, rfl⟩
  | case2 i s hread =>
    have hnone := r.noMessage_congr (i := i) h
    rw [hread] at hnone
    rw [messages_of_noMessage hnone.symm]
    exact ⟨rfl, rfl⟩
  | case3 i s fault hread =>
    have hnone := r.noMessage_congr (i := i) h
    rw [hread] at hnone
    rw [messages_of_noMessage hnone.symm]
    exact ⟨rfl, rfl⟩
  | case4 i s head rest hread p hp behind =>
    rename_i ih
    obtain ⟨rest', hread', hrest⟩ := r.read_congr h hread
    have hrelay := Passage.relay_congr none (Passage.start_congr tap hrest) (Passage.isOpen_start tap rest) (r.framing head)
    obtain ⟨p', hp', hflat⟩ := Relayed.ok_of_flat hrelay hp
    obtain ⟨hsource, hsink, htap⟩ := Passage.flat_congr hflat
    obtain ⟨hds, he⟩ := ih hsource
    rw [messages_of_ok hread' hp']
    refine ⟨?_, he⟩
    rw [List.map_cons, List.map_cons, hds, Delivery.message, Delivery.message, hsink, htap]
  | case5 i s head rest hread f =>
    rename_i hf
    obtain ⟨rest', hread', hrest⟩ := r.read_congr h hread
    have hrelay := Passage.relay_congr none (Passage.start_congr tap hrest) (Passage.isOpen_start tap rest) (r.framing head)
    obtain ⟨f', hf', hfault, hflat⟩ := Relayed.error_of_flat hrelay hf
    obtain ⟨-, hsink, htap⟩ := Passage.flat_congr hflat
    rw [messages_of_error hread' hf']
    refine ⟨?_, rfl⟩
    rw [List.map_singleton, List.map_singleton, Delivery.message, Delivery.message, hsink, htap, hfault]

/-- A message at the front of a stream is read from it, whatever follows. -/
theorem messages_of_front {head : α} {ending : Ending} {blank body more behind : List UInt8} (tap : Nat)
    (hfits : r.fits i head) (hblank : IsBlank blank) (hframing : r.framing head ≠ .untilClose)
    (hbody : (r.framing head).Delimits ending body behind) (ht : t.bytes = blank ++ (r.raw head ++ (body ++ more))) :
    ∃ rest q, (Passage.start tap rest).Passes body q ∧ q.source.bytes = more ∧
      r.messages tap i t =
        (⟨head, q, none⟩ :: (r.messages tap (r.next i) q.source).1, (r.messages tap (r.next i) q.source).2) := by
  obtain ⟨rest, hrest, -, hread⟩ := r.again hfits hblank ht
  obtain ⟨q, hpass, hq⟩ :=
    Passage.relay_of_delimits none (Passage.isOpen_start tap rest) hrest (hbody.of_ne_untilClose hframing)
  exact ⟨rest, q, hpass, hpass.rest hrest, messages_of_ok hread hq⟩

/-- **A message stays the same when other bytes follow it.** -/
theorem messages_of_prefix {ds ds' : List (Delivery α)} {d : Delivery α} {front : List UInt8}
    (hds : (r.messages tap i s).1 = ds ++ d :: ds') (hfault : d.fault = none) (hframing : r.framing d.head ≠ .untilClose)
    (hfront : s.bytes = front ++ d.behind) (ht : front <+: t.bytes) :
    (ds ++ [d]).map Delivery.message <+: (r.messages tap i t).1.map Delivery.message := by
  fun_induction messages r tap i s generalizing ds front t with
  | case1 => simp at hds
  | case2 => simp at hds
  | case3 => simp at hds
  | case4 i s head rest hread p hp behind =>
    rename_i ih
    obtain ⟨more, hmore⟩ := ht
    obtain ⟨hfits, blank, hblank, hs, -⟩ := r.front hread
    obtain ⟨body, hbody, hpass⟩ := Passage.relay_ok (Passage.isOpen_start tap rest) hp
    have hbytes : rest.bytes = body ++ p.source.bytes := hpass.bytes
    -- the messages behind this one, if it is not the last of those in question, stand in front of `d.behind`, too
    have hstep : ∀ front', p.source.bytes = front' ++ d.behind → r.framing head ≠ .untilClose →
        ∃ q, q.source.bytes = front' ++ more ∧ Delivery.message ⟨head, p, none⟩ = Delivery.message ⟨head, q, none⟩ ∧
          r.messages tap i t =
            (⟨head, q, none⟩ :: (r.messages tap (r.next i) q.source).1, (r.messages tap (r.next i) q.source).2) := by
      intro front' hfront' hne
      have heq : front = blank ++ (r.raw head ++ (body ++ front')) := by
        refine (List.append_left_inj d.behind).1 ?_
        rw [← hfront, hs, hbytes, hfront']
        simp only [List.append_assoc]
      have ht' : t.bytes = blank ++ (r.raw head ++ (body ++ (front' ++ more))) := by
        rw [← hmore, heq]
        simp only [List.append_assoc]
      obtain ⟨rest', q, hq, hqmore, hmessages⟩ := messages_of_front tap hfits hblank hne hbody ht'
      refine ⟨q, hqmore, ?_, hmessages⟩
      show (head, p.sink, p.tap, none) = (head, q.sink, q.tap, none)
      rw [hpass.sink, hq.sink, hpass.tap, hq.tap]
      rfl
    cases ds with
    | nil =>
      obtain ⟨rfl, -⟩ := List.cons.inj hds
      obtain ⟨q, -, hmessage, hmessages⟩ := hstep [] rfl hframing
      rw [hmessages, List.map_cons, ← hmessage]
      exact ⟨_, rfl⟩
    | cons d0 ds =>
      obtain ⟨rfl, hbehind⟩ := List.cons.inj hds
      have hdivides := r.divides_messages tap (r.next i) p.source
      have hmem : d ∈ (r.messages tap (r.next i) p.source).1 := hbehind ▸ List.mem_append_right _ List.mem_cons_self
      have hne : r.framing head ≠ .untilClose := by
        intro huntil
        rw [huntil] at hbody
        exact hdivides.bytes_ne_nil (List.ne_nil_of_mem hmem) hbody.1
      obtain ⟨front', hfront'⟩ := hdivides.behind_suffix hmem hfault
      obtain ⟨q, hqmore, hmessage, hmessages⟩ := hstep front' hfront'.symm hne
      obtain ⟨ms, hms⟩ := ih hbehind hfront'.symm ⟨more, hqmore.symm⟩
      rw [hmessages, List.cons_append, List.map_cons, List.map_cons, ← hms, ← hmessage]
      exact ⟨ms, rfl⟩
  | case5 i s head rest hread f =>
    rename_i hf
    cases ds with
    | nil =>
      obtain ⟨rfl, -⟩ := List.cons.inj hds
      cases hfault
    | cons d0 ds => simp at hds

/-! ## Streams of requests and of responses -/

/-- What a sequence of messages is to the stream that it is read from. -/
structure Partitions (r : HeadReader ι α) (i : ι) (read : Source → List (Delivery α) × StreamEnd) : Prop where
  /-- The messages divide the bytes of the stream. -/
  divides (s : Source) : r.Divides s.ending i (read s).1 (read s).2 s.bytes
  /-- It does not matter where the stream is cut. -/
  uncut {s t : Source} : s.bytes = t.bytes → s.ending = t.ending →
    (read s).1.map Delivery.message = (read t).1.map Delivery.message ∧ (read s).2 = (read t).2
  /-- Nor does it matter how many bytes the buffer of the reader takes. -/
  unbuffered {capacity capacity' : Nat} {bs : List UInt8} {ending : Ending} : 0 < capacity → 0 < capacity' →
    (read (.ofBytes capacity bs ending)).1.map Delivery.message = (read (.ofBytes capacity' bs ending)).1.map Delivery.message ∧
      (read (.ofBytes capacity bs ending)).2 = (read (.ofBytes capacity' bs ending)).2
  /-- Up to any message that is whole, the messages depend on no bytes behind it. -/
  selfDelimiting {s t : Source} {ds ds' : List (Delivery α)} {d : Delivery α} {front : List UInt8} :
    (read s).1 = ds ++ d :: ds' → d.fault = none → r.framing d.head ≠ .untilClose → s.bytes = front ++ d.behind →
    front <+: t.bytes → (ds ++ [d]).map Delivery.message <+: (read t).1.map Delivery.message

theorem partitions_messages (r : HeadReader ι α) (tap : Nat) (i : ι) : r.Partitions i (r.messages tap i) where
  divides := r.divides_messages tap i
  uncut hbytes hending := messages_congr (Source.flat_eq_flat_iff.2 ⟨hbytes, hending⟩)
  unbuffered {capacity capacity' bs ending} hpos hpos' := by
    have hbytes := (Source.bytes_ofBytes hpos bs ending).trans (Source.bytes_ofBytes hpos' bs ending).symm
    exact messages_congr (Source.flat_eq_flat_iff.2 ⟨hbytes, rfl⟩)
  selfDelimiting := messages_of_prefix

end HeadReader

/-- **Streams are their messages**: requests and responses alike are read one behind the other, with nothing between them but
empty lines, as long as there is one to be read, and wherever the stream is cut; and no message depends on what follows it, but
for the body of a response that runs to the end of the stream. -/
theorem streams_partitioned {max : Nat} (hmax : 2 ≤ max) (tap : Nat) (methods : List String) :
    (requestReader hmax).Partitions () (requests ⟨max, tap, none⟩) ∧
      (responseReader hmax).Partitions methods (responses ⟨max, tap, none⟩ methods) ∧
      ∀ head, (requestReader hmax).fits () head → (requestReader hmax).framing head ≠ .untilClose := by
  refine ⟨?_, ?_, fun _ => RequestHead.Fits.framing_ne_untilClose⟩
  · have heq : requests ⟨max, tap, none⟩ = (requestReader hmax).messages tap () :=
      funext fun s => requestsLoop_eq ⟨max, tap, none⟩ hmax rfl [] s
    rw [heq]
    exact (requestReader hmax).partitions_messages tap ()
  · have heq : responses ⟨max, tap, none⟩ methods = (responseReader hmax).messages tap methods :=
      funext fun s => responsesLoop_eq ⟨max, tap, none⟩ hmax rfl methods [] s
    rw [heq]
    exact (responseReader hmax).partitions_messages tap methods

/-- Heads of up to 64 bytes, one byte of each body for a look, and two responses of which the first has no body. -/
theorem streams_partitioned_short :
    ∃ hmax : 2 ≤ 64, (requestReader hmax).Partitions () (requests ⟨64, 1, none⟩) ∧
      (responseReader hmax).Partitions ["HEAD", "GET"] (responses ⟨64, 1, none⟩ ["HEAD", "GET"]) ∧
      ∀ head, (requestReader hmax).fits () head → (requestReader hmax).framing head ≠ .untilClose :=
  ⟨by decide, streams_partitioned (by decide) 1 ["HEAD", "GET"]⟩

end Http
end SearchTelemetry
