import SearchTelemetry.Proofs.Http.Segments
import SearchTelemetry.Relay.Inlet
/-!
# Relay.Transfers — how far a body has come

What can be passed on of a body is a part of what has come in (`passed_prefix`), and never more than the body
(`passed_prefix_of_delimits`).  Bytes that come later take nothing back (`passed_mono`).  A body is known to be whole just
when it is there (`delimits_of_whole`, `whole_of_delimits`).
-/
namespace SearchTelemetry
namespace Relay
namespace Transfer

open Http (Ending Failure Framing Passage)

variable {n : Nat} {framing : Framing} {i i' : Inlet} {body rest : List UInt8}

theorem ofInlet_of_ok {p : Passage} (h : Passage.relay none (.start n i.source) framing = .ok p) :
    ofInlet n framing i = ⟨p.sink.written, p.tap, .whole p.source.bytes⟩ := by
  have hrelay : Passage.relay none ⟨i.source, .ofRoom none, .ofLimit n⟩ framing = .ok p := h
  unfold ofInlet
  rw [hrelay]

theorem ofInlet_of_error {f : Failure} (h : Passage.relay none (.start n i.source) framing = .error f) :
    (ofInlet n framing i).passed = f.passage.sink.written ∧ ∀ rest, (ofInlet n framing i).standing ≠ .whole rest := by
  have hrelay : Passage.relay none ⟨i.source, .ofRoom none, .ofLimit n⟩ framing = .error f := h
  unfold ofInlet
  rw [hrelay]
  refine ⟨rfl, fun rest => ?_⟩
  dsimp only
  split <;> nofun

theorem passed_eq (n : Nat) (framing : Framing) (i : Inlet) :
    (ofInlet n framing i).passed = (Passage.relay none (.start n i.source) framing).passage.sink.written := by
  cases h : Passage.relay none (.start n i.source) framing with
  | ok p => rw [ofInlet_of_ok h]; rfl
  | error f => exact (ofInlet_of_error h).1

/-- The tap has seen what can be passed on. -/
theorem tap_eq (n : Nat) (framing : Framing) (i : Inlet) :
    (ofInlet n framing i).tap = (Http.Tap.ofLimit n).observe (ofInlet n framing i).passed := by
  have hopen := Passage.isOpen_start n i.source
  obtain ⟨bs, hreach⟩ := Passage.relay_reaches none hopen framing
  have hpassed : (ofInlet n framing i).passed = bs := (passed_eq n framing i).trans (hreach.written hopen)
  have htap : (ofInlet n framing i).tap = (Passage.relay none (.start n i.source) framing).passage.tap := by
    have hrelay : Passage.relay none (.start n i.source) framing =
        Passage.relay none ⟨i.source, .ofRoom none, .ofLimit n⟩ framing := rfl
    unfold ofInlet
    rw [hrelay]
    split <;> rename_i h <;> rw [h] <;> rfl
  rw [htap, hpassed]
  exact hreach.tap

/-- What can be passed on has come in. -/
theorem passed_prefix (n : Nat) (framing : Framing) (i : Inlet) : (ofInlet n framing i).passed <+: i.unread := by
  have hopen := Passage.isOpen_start n i.source
  obtain ⟨bs, hreach⟩ := Passage.relay_reaches none hopen framing
  rw [passed_eq, hreach.written hopen, ← i.bytes_source]
  exact hreach.front

/-- Bytes that come later take nothing back. -/
theorem passed_mono (n : Nat) (framing : Framing) (h : i.unread <+: i'.unread) :
    (ofInlet n framing i).passed <+: (ofInlet n framing i').passed := by
  have hgrows : (Passage.start n i.source).Grows (.start n i'.source) := by
    refine ⟨?_, rfl⟩
    rw [← i.bytes_source, ← i'.bytes_source] at h
    exact h
  rw [passed_eq, passed_eq]
  exact Passage.written_relay_mono none hgrows (Passage.isOpen_start n i.source) framing

/-- A body that is known to be whole is one, and it has been passed on. -/
theorem delimits_of_whole (h : (ofInlet n framing i).standing = .whole rest) :
    i.unread = (ofInlet n framing i).passed ++ rest ∧
      framing.Delimits i.source.ending (ofInlet n framing i).passed rest := by
  have hopen := Passage.isOpen_start n i.source
  cases hrelay : Passage.relay none (.start n i.source) framing with
  | error f => exact absurd h ((ofInlet_of_error hrelay).2 rest)
  | ok p =>
    obtain ⟨body, hbody, hpass⟩ := Passage.relay_ok hopen hrelay
    have hwritten : p.sink.written = body := hpass.written hopen
    rw [ofInlet_of_ok hrelay] at h ⊢
    obtain rfl := Standing.whole.inj h
    dsimp only
    rw [hwritten, ← i.bytes_source]
    exact ⟨hpass.bytes, hbody⟩

/-- A body that is there is known to be whole. -/
theorem whole_of_delimits (hs : i.unread = body ++ rest) (hbody : framing.Delimits i.source.ending body rest) :
    (ofInlet n framing i).passed = body ∧ (ofInlet n framing i).standing = .whole rest := by
  have hopen := Passage.isOpen_start n i.source
  have hbytes : (Passage.start n i.source).source.bytes = body ++ rest := i.bytes_source.trans hs
  obtain ⟨q, hpass, hrelay⟩ := Passage.relay_of_delimits none hopen hbytes hbody
  rw [ofInlet_of_ok hrelay]
  refine ⟨hpass.written hopen, ?_⟩
  rw [hpass.rest hbytes]

/-- Never more than a body is passed on, however far it has come. -/
theorem passed_prefix_of_delimits {ending : Ending} (hframing : framing ≠ .untilClose)
    (h : i.unread <+: body ++ rest) (hbody : framing.Delimits ending body rest) : (ofInlet n framing i).passed <+: body := by
  have hlater : (ofInlet n framing ⟨body ++ rest, false⟩).passed = body :=
    (whole_of_delimits rfl (hbody.of_ne_untilClose hframing)).1
  rw [← hlater]
  exact passed_mono n framing h

end Transfer
end Relay
end SearchTelemetry
