import Mathlib.Data.List.Infix
import SearchTelemetry.Proofs.Http.Bodies
/-!
# Http.Segments — bodies that come in other segments, or with more behind them

Two passages are compared step by step.  Where one has the bytes of the other in front, it passes on at least as much
(`written_relay_mono`): bytes that come later never take back what has been passed on.  Where both have the same bytes, cut in
different places, they pass on the same and fail for the same reason (`relay_congr`).
-/
namespace SearchTelemetry
namespace Http
namespace Passage

variable {p q p' q' : Passage} {a b bs more : List UInt8} {idle : Option Nat} {o : Relayed}

/-! ## More bytes -/

/-- One passage has the bytes of the other in front, and as much in its sink. -/
def Grows (p p' : Passage) : Prop :=
  p.source.bytes <+: p'.source.bytes ∧ p'.sink = p.sink

theorem Grows.isOpen (h : p.Grows p') (hp : p.IsOpen) : p'.IsOpen := by
  unfold IsOpen
  rw [h.2]
  exact hp

theorem Grows.bytes (h : p.Grows p') (hs : p.source.bytes = bs ++ more) : ∃ more', p'.source.bytes = bs ++ more' := by
  obtain ⟨more', hmore⟩ := h.1
  exact ⟨more ++ more', by rw [← hmore, hs, List.append_assoc]⟩

theorem Grows.of_passes (h : p.Grows p') (hq : p.Passes bs q) (hq' : p'.Passes bs q') : q.Grows q' := by
  refine ⟨?_, by rw [hq.sink, hq'.sink, h.2]⟩
  have hpre := h.1
  rwa [hq.bytes, hq'.bytes, List.prefix_append_right_inj] at hpre

theorem Grows.written_of_nil {o' : Relayed} (h : p.Grows p') (hp : p.IsOpen) (ho : p.Reaches [] o) (ho' : p'.Reaches b o') :
    o.passage.sink.written <+: o'.passage.sink.written := by
  rw [ho.written hp, ho'.written (h.isOpen hp), h.2, List.append_nil]
  exact List.prefix_append _ _

theorem Grows.line (h : p.Grows p') (hp : p.IsOpen) {l : List UInt8} (hl : line idle p = .ok (l, q)) :
    ∃ q', Passage.line idle p' = .ok (l, q') ∧ q.Grows q' := by
  obtain ⟨hline, hpass⟩ := line_ok hp hl
  obtain ⟨more, hmore⟩ := h.bytes hpass.bytes
  obtain ⟨q', hpass', hl'⟩ := line_of_isChunkLine idle (h.isOpen hp) hline hmore
  exact ⟨q', hl', h.of_passes hpass hpass'⟩

theorem written_exactly_mono (idle : Option Nat) (h : p.Grows p') (hp : p.IsOpen) (n : Nat) :
    (exactly idle n p).passage.sink.written <+: (exactly idle n p').passage.sink.written := by
  rw [(exactly_reaches idle hp n).written hp, (exactly_reaches idle (h.isOpen hp) n).written (h.isOpen hp), h.2]
  exact (List.prefix_append_right_inj _).2 (List.IsPrefix.take h.1 n)

theorem written_trailers_mono (h : p.Grows p') (hp : p.IsOpen) :
    (trailers idle p).passage.sink.written <+: (trailers idle p').passage.sink.written := by
  fun_induction trailers idle p generalizing p' with
  | case1 p e he =>
    obtain ⟨bs, hbs⟩ := trailers_reaches idle (h.isOpen hp)
    exact h.written_of_nil hp (reaches_of_line_error hp he) hbs
  | case2 p l q hl hempty =>
    obtain ⟨q', hl', hgrows⟩ := h.line hp hl
    rw [trailers_of_line hl', if_pos hempty]
    show q.sink.written <+: q'.sink.written
    rw [hgrows.2]
  | case3 p l q hl hempty ih =>
    obtain ⟨q', hl', hgrows⟩ := h.line hp hl
    rw [trailers_of_line hl', if_neg hempty]
    exact ih hgrows ((line_ok hp hl).2.isOpen hp)

theorem written_chunks_mono (h : p.Grows p') (hp : p.IsOpen) :
    (chunks idle p).passage.sink.written <+: (chunks idle p').passage.sink.written := by
  fun_induction chunks idle p generalizing p' with
  | case1 p e he =>
    obtain ⟨bs, hbs⟩ := chunks_reaches idle (h.isOpen hp)
    exact h.written_of_nil hp (reaches_of_line_error hp he) hbs
  | case2 p l q hl hsize =>
    obtain ⟨q', hl', hgrows⟩ := h.line hp hl
    rw [chunks_of_bad hl' fun n hn => absurd (hsize.symm.trans hn) (Option.some_ne_none n).symm]
    show q.sink.written <+: q'.sink.written
    rw [hgrows.2]
  | case3 p l q hl hsize =>
    obtain ⟨q', hl', hgrows⟩ := h.line hp hl
    rw [chunks_of_last hl' hsize]
    exact written_trailers_mono hgrows ((line_ok hp hl).2.isOpen hp)
  | case4 p l q hl n hn hsize hlarge =>
    obtain ⟨q', hl', hgrows⟩ := h.line hp hl
    rw [chunks_of_bad hl' fun m hm => by rwa [← Option.some.inj (hsize.symm.trans hm)]]
    show q.sink.written <+: q'.sink.written
    rw [hgrows.2]
  | case5 p l q hl n hn hsize hlarge e he =>
    obtain ⟨q', hl', hgrows⟩ := h.line hp hl
    have hq := (line_ok hp hl).2.isOpen hp
    rw [chunks_of_chunk hl' hsize hn (Nat.le_of_not_lt hlarge)]
    have hmono := written_exactly_mono idle hgrows hq (n + 2)
    rw [he] at hmono
    refine hmono.trans ?_
    cases he' : exactly idle (n + 2) q' with
    | error e' => exact List.prefix_refl _
    | ok r' =>
      have hr' := (exactly_ok (hgrows.isOpen hq) he').choose_spec.2.isOpen (hgrows.isOpen hq)
      obtain ⟨bs, hbs⟩ := chunks_reaches idle hr'
      show r'.sink.written <+: (chunks idle r').passage.sink.written
      rw [hbs.written hr']
      exact List.prefix_append _ _
  | case6 p l q hl n hn hsize hlarge r hr ih =>
    obtain ⟨q', hl', hgrows⟩ := h.line hp hl
    have hq := (line_ok hp hl).2.isOpen hp
    obtain ⟨data, hdata, hchunk⟩ := exactly_ok hq hr
    obtain ⟨more, hmore⟩ := hgrows.bytes hchunk.bytes
    obtain ⟨r', hchunk', hr'⟩ := exactly_of_length idle (hgrows.isOpen hq) hmore
    rw [chunks_of_chunk hl' hsize hn (Nat.le_of_not_lt hlarge), ← hdata, hr']
    exact ih (hgrows.of_passes hchunk hchunk') (hchunk.isOpen hq)

/-- **The more bytes there are, the more is passed on.** -/
theorem written_relay_mono (idle : Option Nat) (h : p.Grows p') (hp : p.IsOpen) (framing : Framing) :
    (relay idle p framing).passage.sink.written <+: (relay idle p' framing).passage.sink.written := by
  cases framing with
  | empty =>
    show p.sink.written <+: p'.sink.written
    rw [h.2]
  | length n => exact written_exactly_mono idle h hp n
  | chunked => exact written_chunks_mono h hp
  | untilClose =>
    rw [written_relay_untilClose idle hp, written_relay_untilClose idle (h.isOpen hp), h.2]
    exact (List.prefix_append_right_inj _).2 h.1

/-! ## Where the stream is cut -/

theorem IsOpen.of_flat (h : p.flat = p'.flat) (hp : p.IsOpen) : p'.IsOpen := by
  unfold IsOpen
  rw [← (flat_congr h).2.1]
  exact hp

theorem bytes_congr (h : p.flat = p'.flat) : p.source.bytes = p'.source.bytes ∧ p.source.ending = p'.source.ending :=
  Source.flat_eq_flat_iff.1 (flat_congr h).1

theorem failRead_congr (h : p.flat = p'.flat) (f : ReadFault) :
    Relayed.flat (p.failRead f) = Relayed.flat (p'.failRead f) := by
  show Except.error (Failure.mk (.read f) p.flat) = Except.error (Failure.mk (.read f) p'.flat)
  rw [h]

theorem failEnded_congr (h : p.flat = p'.flat) (idle : Option Nat) (f : ReadFault) :
    Relayed.flat (p.failEnded idle f) = Relayed.flat (p'.failEnded idle f) := by
  unfold failEnded
  rw [(bytes_congr h).2]
  split
  · exact failRead_congr h f
  · exact failRead_congr h (.quiet idle)

theorem exactly_congr (idle : Option Nat) (h : p.flat = p'.flat) (hp : p.IsOpen) (n : Nat) :
    Relayed.flat (exactly idle n p) = Relayed.flat (exactly idle n p') := by
  obtain ⟨q, hpass, heq⟩ := exactly_eq idle hp n
  obtain ⟨q', hpass', heq'⟩ := exactly_eq idle (hp.of_flat h) n
  rw [← (bytes_congr h).1] at hpass' heq'
  have hq := hpass.flat_congr hpass' h
  rw [heq, heq']
  split
  · exact congrArg Except.ok hq
  · exact failEnded_congr hq _ _

theorem toEnd_congr (h : p.flat = p'.flat) (hp : p.IsOpen) :
    Relayed.flat (toEnd idle p) = Relayed.flat (toEnd idle p') := by
  obtain ⟨q, hpass, heq⟩ := toEnd_eq idle hp
  obtain ⟨q', hpass', heq'⟩ := toEnd_eq idle (hp.of_flat h)
  rw [← (bytes_congr h).1] at hpass'
  rw [← (bytes_congr h).2] at heq'
  have hq := hpass.flat_congr hpass' h
  rw [heq, heq']
  split
  · exact congrArg Except.ok hq
  · exact failRead_congr hq (.quiet idle)

theorem line_congr (h : p.flat = p'.flat) (hp : p.IsOpen) {l : List UInt8} (hl : line idle p = .ok (l, q)) :
    ∃ q', line idle p' = .ok (l, q') ∧ q.flat = q'.flat := by
  obtain ⟨hline, hpass⟩ := line_ok hp hl
  obtain ⟨q', hpass', hl'⟩ := line_of_isChunkLine idle (hp.of_flat h) hline
    ((bytes_congr h).1.symm.trans hpass.bytes)
  exact ⟨q', hl', hpass.flat_congr hpass' h⟩

theorem line_error_congr {e : Failure} (h : p.flat = p'.flat) (hp : p.IsOpen) (hl : line idle p = .error e) :
    ∃ e', line idle p' = .error e' ∧ Relayed.flat (.error e) = Relayed.flat (.error e') := by
  obtain ⟨hsource, hsink, htap⟩ := flat_congr h
  obtain ⟨-, hstop, hrest⟩ := Source.readLine_congr hsource maxChunkLine
  have hflat : ({ p with source := (p.source.readLine maxChunkLine).rest } : Passage).flat =
      { p' with source := (p'.source.readLine maxChunkLine).rest }.flat := by
    unfold flat
    rw [hrest, hsink, htap]
  unfold line at hl ⊢
  dsimp only at hl ⊢
  rw [← hstop, ← (bytes_congr h).2]
  cases hs : (p.source.readLine maxChunkLine).stop with
  | lineFeed =>
    rw [hs] at hl
    dsimp only at hl
    rw [forward_of_isOpen (hp.behind _)] at hl
    cases hl
  | full =>
    rw [hs] at hl
    cases hl
    exact ⟨_, rfl, failRead_congr hflat .lineTruncated⟩
  | exhausted =>
    rw [hs] at hl
    cases hl
    exact ⟨_, rfl, failRead_congr hflat _⟩

theorem trailers_congr (h : p.flat = p'.flat) (hp : p.IsOpen) :
    Relayed.flat (trailers idle p) = Relayed.flat (trailers idle p') := by
  fun_induction trailers idle p generalizing p' with
  | case1 p e he =>
    obtain ⟨e', he', heq⟩ := line_error_congr h hp he
    rw [trailers_of_error he', heq]
  | case2 p l q hl hempty =>
    obtain ⟨q', hl', heq⟩ := line_congr h hp hl
    rw [trailers_of_line hl', if_pos hempty]
    exact congrArg Except.ok heq
  | case3 p l q hl hempty ih =>
    obtain ⟨q', hl', heq⟩ := line_congr h hp hl
    rw [trailers_of_line hl', if_neg hempty]
    exact ih heq ((line_ok hp hl).2.isOpen hp)

theorem chunks_congr (h : p.flat = p'.flat) (hp : p.IsOpen) :
    Relayed.flat (chunks idle p) = Relayed.flat (chunks idle p') := by
  fun_induction chunks idle p generalizing p' with
  | case1 p e he =>
    obtain ⟨e', he', heq⟩ := line_error_congr h hp he
    rw [chunks_of_error he', heq]
  | case2 p l q hl hsize =>
    obtain ⟨q', hl', heq⟩ := line_congr h hp hl
    rw [chunks_of_bad hl' fun n hn => absurd (hsize.symm.trans hn) (Option.some_ne_none n).symm]
    exact failRead_congr heq (.badChunkLine l)
  | case3 p l q hl hsize =>
    obtain ⟨q', hl', heq⟩ := line_congr h hp hl
    rw [chunks_of_last hl' hsize]
    exact trailers_congr heq ((line_ok hp hl).2.isOpen hp)
  | case4 p l q hl n hn hsize hlarge =>
    obtain ⟨q', hl', heq⟩ := line_congr h hp hl
    rw [chunks_of_bad hl' fun m hm => by rwa [← Option.some.inj (hsize.symm.trans hm)]]
    exact failRead_congr heq (.badChunkLine l)
  | case5 p l q hl n hn hsize hlarge e he =>
    obtain ⟨q', hl', heq⟩ := line_congr h hp hl
    have hexact := exactly_congr idle heq ((line_ok hp hl).2.isOpen hp) (n + 2)
    rw [chunks_of_chunk hl' hsize hn (Nat.le_of_not_lt hlarge)]
    rw [he] at hexact
    cases he' : exactly idle (n + 2) q' with
    | error e' => rwa [he'] at hexact
    | ok r' =>
      rw [he'] at hexact
      cases hexact
  | case6 p l q hl n hn hsize hlarge r hr ih =>
    obtain ⟨q', hl', heq⟩ := line_congr h hp hl
    have hq := (line_ok hp hl).2.isOpen hp
    have hexact := exactly_congr idle heq hq (n + 2)
    rw [chunks_of_chunk hl' hsize hn (Nat.le_of_not_lt hlarge)]
    rw [hr] at hexact
    cases hr' : exactly idle (n + 2) q' with
    | error e' =>
      rw [hr'] at hexact
      cases hexact
    | ok r' =>
      rw [hr'] at hexact
      exact ih (Except.ok.inj hexact) ((exactly_ok hq hr).choose_spec.2.isOpen hq)

/-- **Where a stream is cut has no effect on how a body of it is passed on.** -/
theorem relay_congr (idle : Option Nat) (h : p.flat = p'.flat) (hp : p.IsOpen) (framing : Framing) :
    Relayed.flat (relay idle p framing) = Relayed.flat (relay idle p' framing) := by
  cases framing with
  | empty => exact congrArg Except.ok h
  | length n => exact exactly_congr idle h hp n
  | chunked => exact chunks_congr h hp
  | untilClose => exact toEnd_congr h hp

theorem start_congr {s t : Source} (tap : Nat) (h : s.flat = t.flat) : (start tap s).flat = (start tap t).flat := by
  show (⟨s.flat, .ofRoom none, .ofLimit tap⟩ : Passage) = ⟨t.flat, .ofRoom none, .ofLimit tap⟩
  rw [h]

end Passage

theorem Relayed.ok_of_flat {o o' : Relayed} {p : Passage} (h : Relayed.flat o = Relayed.flat o') (ho : o = .ok p) :
    ∃ p', o' = .ok p' ∧ p.flat = p'.flat := by
  subst ho
  cases o' with
  | error f => cases h
  | ok p' =>
    have heq : (.ok p.flat : Relayed) = .ok p'.flat := h
    exact ⟨p', rfl, Except.ok.inj heq⟩

theorem Relayed.error_of_flat {o o' : Relayed} {f : Failure} (h : Relayed.flat o = Relayed.flat o') (ho : o = .error f) :
    ∃ f', o' = .error f' ∧ f.fault = f'.fault ∧ f.passage.flat = f'.passage.flat := by
  subst ho
  cases o' with
  | error f' =>
    have heq : Failure.mk f.fault f.passage.flat = ⟨f'.fault, f'.passage.flat⟩ := Except.error.inj h
    obtain ⟨hfault, hpassage⟩ := Failure.mk.inj heq
    exact ⟨f', rfl, hfault, hpassage⟩
  | ok p' => cases h

end Http
end SearchTelemetry
