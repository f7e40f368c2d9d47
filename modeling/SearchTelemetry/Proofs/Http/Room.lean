import SearchTelemetry.Proofs.Http.Segments
/-!
# Http.Room — what a sink with little room receives

A relay into a sink that takes `n` bytes goes as the relay into a sink that takes any number, until a byte comes that there is
no room for (`confined_relay`).  What has been written is in either case the front of the same bytes, and the sink is to
blame just if there are more of them than it takes (`relay_accounted`).

What the tap has seen is what has been written, and where a stream is cut has no effect on it, but for one case: of bytes that
the sink did not take in one piece the tap sees nothing, and the pieces are those of the buffer
(`relay_unseen_by_capacity`).
-/
namespace SearchTelemetry
namespace Http

/-! ## Sinks with room -/

namespace Sink

variable {k : Sink} {n : Nat} {bs : List UInt8}

/-- The sink with room for so many bytes more. -/
def withRoom (n : Nat) (k : Sink) : Sink :=
  { k with room := some n }

theorem write_withRoom (hk : k.room = none) (h : bs.length ≤ n) :
    (k.withRoom n).write bs = (k.write bs).withRoom (n - bs.length) := by
  simp [write, withRoom, hk, List.take_of_length_le h]

/-- A sink that is full takes nothing more. -/
theorem write_withRoom_append (h : n ≤ bs.length) (more : List UInt8) :
    (k.withRoom n).write (bs ++ more) = (k.withRoom n).write bs := by
  have hroom : n - (bs.length + more.length) = n - bs.length := by omega
  simp [write, withRoom, List.take_append_of_le_length h, hroom]

theorem written_write_withRoom (k : Sink) (n : Nat) (bs : List UInt8) :
    ((k.withRoom n).write bs).written = k.written ++ bs.take n := by
  simp [write, written, withRoom]

theorem takes_withRoom : (k.withRoom n).takes bs.length ↔ bs.length ≤ n := by
  simp [takes, withRoom]

end Sink

namespace Passage

def withRoom (n : Nat) (p : Passage) : Passage :=
  { p with sink := p.sink.withRoom n }

end Passage

/-- The outcome, with room for so many bytes more in the sink. -/
def Relayed.withRoom (n : Nat) : Relayed → Relayed
  | .ok p => .ok (p.withRoom n)
  | .error e => .error { e with passage := e.passage.withRoom n }

namespace Passage

/-! ## With room and without limit -/

/-- A relay comes to `o` in a sink that takes any number of bytes, and to `o'` in one that takes `n`. -/
inductive Confined (n : Nat) (p : Passage) (o o' : Relayed) : Prop where
  /-- There is room for all of the bytes, and it makes no difference. -/
  | within {bs : List UInt8} : p.Reaches bs o → bs.length ≤ n → o' = o.withRoom (n - bs.length) → Confined n p o o'
  /-- There is room for the first of the bytes, of which the tap has seen those that went through in whole pieces. -/
  | beyond {bs seen : List UInt8} {q : Passage} : p.Reaches bs o → n < bs.length → seen <+: bs → seen.length ≤ n →
      q.sink = (p.withRoom n).sink.write bs → q.tap = p.tap.observe seen → o' = .error ⟨.write, q⟩ → Confined n p o o'

variable {p q r : Passage} {a b bs more : List UInt8} {idle : Option Nat} {o o' : Relayed} {n : Nat}

theorem Confined.reaches (h : Confined n p o o') : ∃ bs, p.Reaches bs o := by
  cases h with
  | within hreach => exact ⟨_, hreach⟩
  | beyond hreach => exact ⟨_, hreach⟩

theorem confined_refl (n : Nat) (p : Passage) : Confined n p (.ok p) (.ok (p.withRoom n)) :=
  .within (Passes.refl p).reaches (Nat.zero_le n) rfl

theorem Passes.unique (hp : p.IsOpen) (h : p.Passes a r) (h' : p.Reaches b (.ok r)) : a = b := by
  have hwritten := (h.written hp).symm.trans (h'.written hp)
  exact List.append_cancel_left hwritten

/-- What goes on behind bytes for which there was room. -/
theorem Confined.after {m : Nat} (hp : p.IsOpen) (hpass : p.Passes a r) (hle : a.length ≤ n) (hm : m = n - a.length)
    (h : Confined m r o o') : Confined n p o o' := by
  subst hm
  have hsink : r.sink.withRoom (n - a.length) = (p.sink.withRoom n).write a := by
    rw [Sink.write_withRoom hp hle, hpass.sink]
  cases h with
  | @within bs hreach hbs heq =>
    refine .within (hpass.reaches_trans hreach) ?_ ?_
    · rw [List.length_append]
      omega
    · rw [heq, List.length_append, Nat.sub_sub]
  | @beyond bs q seen hreach hbs hseen hlen hwrite htap heq =>
    refine .beyond (hpass.reaches_trans hreach) ?_ ((List.prefix_append_right_inj a).2 hseen) ?_ ?_ ?_ heq
    · rw [List.length_append]
      omega
    · rw [List.length_append]
      omega
    · rw [hwrite]
      show (r.sink.withRoom (n - a.length)).write bs = (p.sink.withRoom n).write (a ++ bs)
      rw [hsink, Sink.write_write]
    · rw [htap, hpass.tap, Tap.observe_observe]

/-- One relay after another. -/
theorem Confined.bind {f : Passage → Relayed} (hp : p.IsOpen) (h : Confined n p o o')
    (hpass : ∀ r, o = .ok r → ∃ a, p.Passes a r)
    (hf : ∀ r m, o = .ok r → Confined m r (f r) (f (r.withRoom m))) : Confined n p (o.bind f) (o'.bind f) := by
  cases h with
  | @within bs hreach hbs heq =>
    subst heq
    cases o with
    | error e => exact .within hreach hbs rfl
    | ok r =>
      obtain ⟨a, ha⟩ := hpass r rfl
      obtain rfl := ha.unique hp hreach
      exact .after hp ha hbs rfl (hf r (n - a.length) rfl)
  | @beyond bs q seen hreach hbs hseen hlen hwrite htap heq =>
    subst heq
    cases o with
    | error e => exact .beyond hreach hbs hseen hlen hwrite htap rfl
    | ok r =>
      obtain ⟨a, ha⟩ := hpass r rfl
      obtain rfl := ha.unique hp hreach
      obtain ⟨b, hb⟩ := (hf r n rfl).reaches
      -- the sink is full behind `a`, so that it makes no difference what `f` writes
      have hall : (p.withRoom n).sink.write (a ++ b) = (p.withRoom n).sink.write a :=
        Sink.write_withRoom_append (Nat.le_of_lt hbs) b
      refine .beyond (ha.reaches_trans hb) ?_ (hseen.trans (List.prefix_append a b)) hlen ?_ htap rfl
      · rw [List.length_append]
        omega
      · rw [hall, hwrite]

/-! ## Piece by piece -/

/-- Wherever the source is while a piece is passed on, it ends up behind the piece. -/
theorem confined_forward (hp : p.IsOpen) {rest : Source} (hpass : p.Passes bs ⟨rest, p.sink.write bs, p.tap.observe bs⟩)
    (n : Nat) (s : Source) :
    Confined n p (forward { p with source := s } bs rest) (forward { p.withRoom n with source := s } bs rest) := by
  rw [forward_of_isOpen (hp.behind s)]
  by_cases hle : bs.length ≤ n
  · have htakes : (p.withRoom n).sink.takes bs.length = true := Sink.takes_withRoom.2 hle
    have hwrite : (p.withRoom n).sink.write bs = (p.sink.write bs).withRoom (n - bs.length) := Sink.write_withRoom hp hle
    refine .within hpass.reaches hle ?_
    rw [forward, if_pos htakes, hwrite]
    rfl
  · have htakes : ¬(p.withRoom n).sink.takes bs.length = true := fun h => hle (Sink.takes_withRoom.1 h)
    let q : Passage := { p.withRoom n with source := s, sink := (p.withRoom n).sink.write bs }
    have hq : q.tap = p.tap.observe [] := p.tap.observe_nil.symm
    refine .beyond hpass.reaches (Nat.lt_of_not_le hle) List.nil_prefix (Nat.zero_le n) rfl hq ?_
    rw [forward, if_neg htakes]

/-- A relay that ends because of the source ends so with room, too. -/
theorem confined_failEnded (n : Nat) (p : Passage) (s : Source) (idle : Option Nat) (f : ReadFault) :
    Confined n p (failEnded { p with source := s } idle f) (failEnded { p.withRoom n with source := s } idle f) := by
  unfold failEnded
  dsimp only
  split
  · exact .within (reaches_nil p s f) (Nat.zero_le n) rfl
  · exact .within (reaches_nil p s _) (Nat.zero_le n) rfl

theorem confined_failRead (n : Nat) (p : Passage) (f : ReadFault) :
    Confined n p (p.failRead f) ((p.withRoom n).failRead f) :=
  .within (reaches_nil p p.source f) (Nat.zero_le n) rfl

/-- A relay that starts with a piece. -/
theorem confined_forward_bind {f : Passage → Relayed} {rest : Source} (hp : p.IsOpen)
    (hpass : p.Passes bs ⟨rest, p.sink.write bs, p.tap.observe bs⟩) (s : Source)
    (hf : ∀ q m, forward { p with source := s } bs rest = .ok q → Confined m q (f q) (f (q.withRoom m))) :
    Confined n p ((forward { p with source := s } bs rest).bind f)
      ((forward { p.withRoom n with source := s } bs rest).bind f) := by
  refine .bind hp (confined_forward hp hpass n s) ?_ hf
  intro q hq
  rw [forward_of_isOpen (hp.behind s)] at hq
  obtain rfl := Except.ok.inj hq
  exact ⟨bs, hpass⟩

/-- A relay that goes on in the same way behind its first piece. -/
theorem confined_behind {f : Passage → Relayed} {rest : Source} (hp : p.IsOpen)
    (hpass : p.Passes bs ⟨rest, p.sink.write bs, p.tap.observe bs⟩) (hr : p.forward bs rest = .ok r)
    (hf : r.IsOpen → ∀ m, Confined m r (f r) (f (r.withRoom m))) :
    Confined n p (f r) (((p.withRoom n).forward bs rest).bind f) := by
  have hbind : f r = (p.forward bs rest).bind f := by
    rw [hr]
    rfl
  rw [hbind]
  refine confined_forward_bind hp hpass p.source ?_
  intro q m hq
  obtain rfl := Except.ok.inj (hr.symm.trans hq)
  rw [forward_of_isOpen hp] at hr
  obtain rfl := Except.ok.inj hr
  exact hf (hpass.isOpen hp) m

/-! ## Bodies without lines -/

theorem exactly_of_buffer {k : Nat} (hk : k ≠ 0) (hs : p.source.fill.buffer ≠ []) :
    exactly idle k p =
      (p.forward (p.source.fill.buffer.take (min k p.source.fill.buffer.length))
        (p.source.fill.consume (min k p.source.fill.buffer.length))).bind
          (exactly idle (k - min k p.source.fill.buffer.length)) := by
  rw [exactly, dif_neg hk]
  dsimp only
  rw [dif_neg hs]
  split <;> rename_i heq <;> rw [heq] <;> rfl

theorem confined_exactly (hp : p.IsOpen) (k n : Nat) :
    Confined n p (exactly idle k p) (exactly idle k (p.withRoom n)) := by
  fun_induction exactly idle k p generalizing n with
  | case1 p =>
    rw [exactly, dif_pos rfl]
    exact confined_refl n p
  | case2 k p hk s hs =>
    have heq : exactly idle k (p.withRoom n) = failEnded { p.withRoom n with source := s } idle (.closedEarly k) := by
      rw [exactly, dif_neg hk]
      exact dif_pos hs
    rw [heq]
    exact confined_failEnded n p s idle _
  | case3 k p hk s hs taken r hr ih =>
    have hroom : exactly idle k (p.withRoom n) =
        ((p.withRoom n).forward (s.buffer.take taken) (s.consume taken)).bind (exactly idle (k - taken)) :=
      exactly_of_buffer hk hs
    rw [hroom]
    exact confined_behind hp (p.passes_consume taken) hr ih
  | case4 k p hk s hs taken e he =>
    rw [forward_of_isOpen hp] at he
    cases he

theorem toEnd_of_buffer (hs : p.source.fill.buffer ≠ []) :
    toEnd idle p =
      (p.forward p.source.fill.buffer (p.source.fill.consume p.source.fill.buffer.length)).bind (toEnd idle) := by
  rw [toEnd, dif_neg hs]
  split <;> rename_i heq <;> rw [heq] <;> rfl

theorem confined_toEnd (hp : p.IsOpen) (n : Nat) : Confined n p (toEnd idle p) (toEnd idle (p.withRoom n)) := by
  fun_induction toEnd idle p generalizing n with
  | case1 p s hs hend =>
    have heq : toEnd idle (p.withRoom n) = .ok (withRoom n { p with source := s }) := by
      have hroom : (p.withRoom n).source.fill.ending = .closed := hend
      rw [toEnd, dif_pos (show (p.withRoom n).source.fill.buffer = [] from hs), hroom]
      rfl
    rw [heq]
    exact .within p.passes_fill.reaches (Nat.zero_le n) rfl
  | case2 p s hs hend =>
    have heq : toEnd idle (p.withRoom n) = failRead (withRoom n { p with source := s }) (.quiet idle) := by
      have hroom : (p.withRoom n).source.fill.ending = .quiet := hend
      rw [toEnd, dif_pos (show (p.withRoom n).source.fill.buffer = [] from hs), hroom]
      rfl
    rw [heq]
    exact .within (reaches_nil p s _) (Nat.zero_le n) rfl
  | case3 p s hs r hr ih =>
    have hroom : toEnd idle (p.withRoom n) =
        ((p.withRoom n).forward s.buffer (s.consume s.buffer.length)).bind (toEnd idle) := toEnd_of_buffer hs
    have hpass := p.passes_consume s.buffer.length
    dsimp only at hpass
    rw [List.take_length] at hpass
    rw [hroom]
    exact confined_behind hp hpass hr ih
  | case4 p s hs e he =>
    rw [forward_of_isOpen hp] at he
    cases he

/-! ## Chunked bodies -/

/-- A line is a piece of its own, or there is none. -/
theorem line_eq (idle : Option Nat) (p : Passage) :
    let l := p.source.readLine maxChunkLine
    let behind := { p with source := l.rest }
    line idle p =
      if l.stop = .lineFeed then (behind.forward l.bytes l.rest).map (l.bytes, ·)
      else .error ⟨.read (if l.stop = .exhausted ∧ p.source.ending = .quiet then .quiet idle else .lineTruncated),
        behind⟩ := by
  unfold line
  dsimp only
  cases (p.source.readLine maxChunkLine).stop with
  | lineFeed =>
    dsimp only
    rw [if_pos rfl]
    split <;> rename_i heq <;> rw [heq] <;> rfl
  | full => simp
  | exhausted => simp

/-- A relay that starts with a line. -/
theorem confined_line_bind {f : List UInt8 × Passage → Relayed} (hp : p.IsOpen) (n : Nat)
    (hf : ∀ l q m, line idle p = .ok (l, q) → Confined m q (f (l, q)) (f (l, q.withRoom m))) :
    Confined n p ((line idle p).bind f) ((line idle (p.withRoom n)).bind f) := by
  let l := p.source.readLine maxChunkLine
  by_cases hstop : l.stop = .lineFeed
  · have hline : line idle p = (forward { p with source := l.rest } l.bytes l.rest).map (l.bytes, ·) :=
      (line_eq idle p).trans (if_pos hstop)
    have hroom : line idle (p.withRoom n) =
        (forward { p.withRoom n with source := l.rest } l.bytes l.rest).map (l.bytes, ·) :=
      (line_eq idle (p.withRoom n)).trans (if_pos hstop)
    have hbind : ∀ o : Relayed, (o.map (l.bytes, ·)).bind f = o.bind fun q => f (l.bytes, q) := by
      intro o
      cases o <;> rfl
    have hpass : p.Passes l.bytes ⟨l.rest, p.sink.write l.bytes, p.tap.observe l.bytes⟩ :=
      ⟨(Source.bytes_readLine maxChunkLine p.source).symm, Source.ending_readLine maxChunkLine p.source, rfl, rfl⟩
    rw [hroom, hline, hbind, hbind]
    refine confined_forward_bind hp hpass l.rest ?_
    intro q m hq
    refine hf l.bytes q m ?_
    rw [hline, hq]
    rfl
  · have hline := (line_eq idle p).trans (if_neg hstop)
    have hroom := (line_eq idle (p.withRoom n)).trans (if_neg hstop)
    rw [hline, hroom]
    exact .within (reaches_nil p l.rest _) (Nat.zero_le n) rfl

theorem trailers_eq (idle : Option Nat) (p : Passage) :
    trailers idle p = (line idle p).bind fun x => if isEmptyLine x.1 then .ok x.2 else trailers idle x.2 := by
  cases h : line idle p with
  | error e => exact trailers_of_error h
  | ok x => exact trailers_of_line h

theorem confined_trailers (idle : Option Nat) (p : Passage) (hp : p.IsOpen) (n : Nat) :
    Confined n p (trailers idle p) (trailers idle (p.withRoom n)) := by
  rw [trailers_eq, trailers_eq idle (p.withRoom n)]
  refine confined_line_bind hp n ?_
  intro l q m hl
  dsimp only
  split
  · exact confined_refl m q
  · exact confined_trailers idle q ((line_ok hp hl).2.isOpen hp) m
termination_by p.source.size
decreasing_by exact size_line hl

theorem chunks_eq (idle : Option Nat) (p : Passage) :
    chunks idle p = (line idle p).bind fun x =>
      match chunkSize? x.1 with
      | none => x.2.failRead (.badChunkLine x.1)
      | some 0 => trailers idle x.2
      | some n =>
        if Numeral.maxUnsigned 64 < n + 2 then x.2.failRead (.badChunkLine x.1)
        else (exactly idle (n + 2) x.2).bind (chunks idle) := by
  cases h : line idle p with
  | error e => exact chunks_of_error h
  | ok x => exact chunks_of_line h

theorem confined_chunks (idle : Option Nat) (p : Passage) (hp : p.IsOpen) (n : Nat) :
    Confined n p (chunks idle p) (chunks idle (p.withRoom n)) := by
  rw [chunks_eq, chunks_eq idle (p.withRoom n)]
  refine confined_line_bind hp n ?_
  intro l q m hl
  have hq : q.IsOpen := (line_ok hp hl).2.isOpen hp
  dsimp only
  split
  · exact confined_failRead m q _
  · exact confined_trailers idle q hq m
  · rename_i size hsize hchunk
    split
    · exact confined_failRead m q _
    · refine .bind hq (confined_exactly hq (size + 2) m) ?_ ?_
      · intro r hr
        obtain ⟨data, -, hpass⟩ := exactly_ok hq hr
        exact ⟨data, hpass⟩
      · intro r m' hr
        obtain ⟨data, -, hpass⟩ := exactly_ok hq hr
        exact confined_chunks idle r (hpass.isOpen hq) m'
termination_by p.source.size
decreasing_by exact Nat.lt_of_le_of_lt (size_exactly hr) (size_line hl)

/-! ## Any body -/

/-- **A sink with little room** makes a difference only by the bytes that it has no room for. -/
theorem confined_relay (idle : Option Nat) (hp : p.IsOpen) (n : Nat) (framing : Framing) :
    Confined n p (relay idle p framing) (relay idle (p.withRoom n) framing) := by
  cases framing with
  | empty => exact confined_refl n p
  | length k => exact confined_exactly hp k n
  | chunked => exact confined_chunks idle p hp n
  | untilClose => exact confined_toEnd hp n

/-- A passage into a sink that takes so many bytes, before the first byte. -/
def into (room : Option Nat) (tap : Nat) (s : Source) : Passage :=
  ⟨s, .ofRoom room, .ofLimit tap⟩

end Passage

/-! ## What is left behind -/

/-- A tap with this limit that has seen these bytes. -/
def Tap.Counts (limit : Nat) (bs : List UInt8) (t : Tap) : Prop :=
  t.total = bs.length ∧ t.preview = bs.take limit

theorem Tap.counts_observe (limit : Nat) (bs : List UInt8) : ((Tap.ofLimit limit).observe bs).Counts limit bs := by
  simp [Counts, observe, ofLimit]

namespace Relayed

/-- What was in the way, if anything. -/
def fault? : Relayed → Option RelayFault
  | .ok _ => none
  | .error e => some e.fault

def written (o : Relayed) : List UInt8 :=
  o.passage.sink.written

def rest (o : Relayed) : List UInt8 :=
  o.passage.source.bytes

def tap (o : Relayed) : Tap :=
  o.passage.tap

/-- A relay of `s` with so much room ends with nothing unaccounted for.  Without limit it would end with `free`. -/
structure Accounts (o : Relayed) (s : Source) (limit : Nat) (room : Option Nat) (free : Relayed) : Prop where
  /-- A relay that is done has written the front of the bytes and left the others. -/
  done : o.fault? = none → o.written ++ o.rest = s.bytes ∧ o.tap.Counts limit o.written
  /-- One that the source ends has written the front of the bytes. -/
  read : ∀ f, o.fault? = some (.read f) → o.written <+: s.bytes ∧ o.tap.Counts limit o.written
  /-- One that the sink ends has written as much as there is room for, and the tap has seen the front of it. -/
  write : o.fault? = some .write →
    (∃ n, room = some n ∧ o.written = free.written.take n) ∧ ∃ seen, seen <+: o.written ∧ o.tap.Counts limit seen
  /-- The sink ends a relay that has more to write than there is room for, and no other. -/
  full : o.fault? = some .write ↔ ∃ n, room = some n ∧ n < free.written.length

/-- Relays that look the same from outside.  When the sink is full they may have got stuck in different pieces. -/
structure Agrees (o o' : Relayed) : Prop where
  fault : o.fault? = o'.fault?
  written : o.written = o'.written
  seen : o.fault? ≠ some .write → o.tap = o'.tap ∧ o.rest = o'.rest

theorem Agrees.refl (o : Relayed) : o.Agrees o :=
  ⟨rfl, rfl, fun _ => ⟨rfl, rfl⟩⟩

theorem Agrees.symm {o o' : Relayed} (h : o.Agrees o') : o'.Agrees o where
  fault := h.fault.symm
  written := h.written.symm
  seen hne := by
    obtain ⟨htap, hrest⟩ := h.seen (h.fault ▸ hne)
    exact ⟨htap.symm, hrest.symm⟩

theorem Agrees.trans {o o' o'' : Relayed} (h : o.Agrees o') (h' : o'.Agrees o'') : o.Agrees o'' where
  fault := h.fault.trans h'.fault
  written := h.written.trans h'.written
  seen hne := by
    obtain ⟨htap, hrest⟩ := h.seen hne
    obtain ⟨htap', hrest'⟩ := h'.seen (h.fault ▸ hne)
    exact ⟨htap.trans htap', hrest.trans hrest'⟩

theorem agrees_withRoom (o : Relayed) (n : Nat) : (o.withRoom n).Agrees o := by
  cases o <;> exact ⟨rfl, rfl, fun _ => ⟨rfl, rfl⟩⟩

theorem agrees_of_flat {o o' : Relayed} (h : Relayed.flat o = Relayed.flat o') : o.Agrees o' := by
  cases o with
  | ok p =>
    obtain ⟨p', rfl, hflat⟩ := ok_of_flat h rfl
    obtain ⟨-, hsink, htap⟩ := Passage.flat_congr hflat
    exact ⟨rfl, congrArg Sink.written hsink, fun _ => ⟨htap, (Passage.bytes_congr hflat).1⟩⟩
  | error e =>
    obtain ⟨e', rfl, hfault, hflat⟩ := error_of_flat h rfl
    obtain ⟨-, hsink, htap⟩ := Passage.flat_congr hflat
    exact ⟨congrArg some hfault, congrArg Sink.written hsink, fun _ => ⟨htap, (Passage.bytes_congr hflat).1⟩⟩

end Relayed

namespace Passage

/-- A relay without limit leaves nothing unaccounted for, and only the source may end it. -/
theorem relay_accounted_of_open (idle : Option Nat) (framing : Framing) (limit : Nat) (s : Source) :
    let o := relay idle (into none limit s) framing
    o.written <+: s.bytes ∧ o.tap.Counts limit o.written ∧ o.fault? ≠ some .write ∧
      (o.fault? = none → o.written ++ o.rest = s.bytes) := by
  intro o
  have hp : (into none limit s).IsOpen := rfl
  obtain ⟨bs, hreach⟩ := relay_reaches idle hp framing
  have hwritten : o.written = bs := hreach.written hp
  have htap : o.tap = (Tap.ofLimit limit).observe bs := hreach.tap
  refine ⟨hwritten ▸ hreach.front, ?_, ?_, ?_⟩
  · rw [htap, hwritten]
    exact Tap.counts_observe limit bs
  · intro hwrite
    cases ho : o with
    | ok p =>
      rw [ho] at hwrite
      cases hwrite
    | error e =>
      rw [ho] at hwrite
      obtain ⟨f, hf⟩ := hreach.fault e ho
      cases hf.symm.trans (Option.some.inj hwrite)
  · intro hnone
    cases ho : o with
    | ok p =>
      obtain ⟨body, -, hpass⟩ := relay_ok hp ho
      have hbody : p.sink.written = body := hpass.written hp
      show p.sink.written ++ p.source.bytes = s.bytes
      rw [hbody]
      exact hpass.bytes.symm
    | error e =>
      rw [ho] at hnone
      cases hnone

/-- A relay with some room goes as without limit, or ends at the sink. -/
theorem into_cases (idle : Option Nat) (framing : Framing) (limit : Nat) (room : Option Nat) (s : Source) :
    let free := relay idle (into none limit s) framing
    let o := relay idle (into room limit s) framing
    (o.Agrees free ∧ ∀ n, room = some n → free.written.length ≤ n) ∨
      ∃ n seen, room = some n ∧ n < free.written.length ∧ o.fault? = some .write ∧ o.written = free.written.take n ∧
        seen <+: o.written ∧ o.tap = (Tap.ofLimit limit).observe seen := by
  intro free o
  cases room with
  | none => exact .inl ⟨.refl o, nofun⟩
  | some n =>
    have hp : (into none limit s).IsOpen := rfl
    have hconfined : Confined n (into none limit s) free o := confined_relay idle hp n framing
    cases hconfined with
    | @within bs hreach hle heq =>
      have hwritten : free.written = bs := hreach.written hp
      refine .inl ⟨heq ▸ Relayed.agrees_withRoom free _, ?_⟩
      rintro m hm
      obtain rfl := Option.some.inj hm
      rwa [hwritten]
    | @beyond bs seen q hreach hlt hseen hlen hsink htap heq =>
      have hfree : free.written = bs := hreach.written hp
      have hwritten : o.written = bs.take n := by
        rw [heq]
        show q.sink.written = bs.take n
        rw [hsink]
        exact Sink.written_write_withRoom (into none limit s).sink n bs
      refine .inr ⟨n, seen, rfl, by rwa [hfree], by rw [heq]; rfl, by rw [hwritten, hfree], ?_, by rw [heq]; exact htap⟩
      rw [hwritten]
      exact List.prefix_take_iff.2 ⟨hseen, hlen⟩

/-- **A relay leaves nothing unaccounted for**, whatever the body, the bytes, the room and the tap.  Its outcome is the
same wherever the stream is cut, and so with buffers of any capacity. -/
theorem relay_accounted (idle : Option Nat) (framing : Framing) (limit : Nat) (room : Option Nat) (s : Source) :
    (relay idle (into room limit s) framing).Accounts s limit room (relay idle (into none limit s) framing) ∧
      ∀ t : Source, t.bytes = s.bytes → t.ending = s.ending →
        (relay idle (into room limit s) framing).Agrees (relay idle (into room limit t) framing) := by
  constructor
  · obtain ⟨hfront, hcounts, hopen, hall⟩ := relay_accounted_of_open idle framing limit s
    rcases into_cases idle framing limit room s with ⟨hsame, hroom⟩ | ⟨n, seen, rfl, hlt, hfault, hwritten, hseen, htap⟩
    · rw [← hsame.fault] at hopen hall
      obtain ⟨htap, hrest⟩ := hsame.seen hopen
      rw [← htap, ← hsame.written] at hcounts
      rw [← hrest, ← hsame.written] at hall
      rw [← hsame.written] at hfront
      refine ⟨fun hnone => ⟨hall hnone, hcounts⟩, fun f _ => ⟨hfront, hcounts⟩, fun h => absurd h hopen, ?_⟩
      refine ⟨fun h => absurd h hopen, ?_⟩
      rintro ⟨n, hn, hlt⟩
      exact absurd (hroom n hn) (Nat.not_le.2 hlt)
    · have hcounted : (relay idle (into (some n) limit s) framing).tap.Counts limit seen := by
        rw [htap]
        exact Tap.counts_observe limit seen
      refine ⟨?_, ?_, fun _ => ⟨⟨n, rfl, hwritten⟩, seen, hseen, hcounted⟩, fun _ => ⟨n, rfl, hlt⟩, fun _ => hfault⟩
      · intro hnone
        cases hfault.symm.trans hnone
      · intro f hread
        cases hfault.symm.trans hread
  · intro t hbytes hending
    have hflat : s.flat = t.flat := Source.flat_eq_flat_iff.2 ⟨hbytes.symm, hending.symm⟩
    have hfree : (relay idle (into none limit s) framing).Agrees (relay idle (into none limit t) framing) :=
      Relayed.agrees_of_flat (relay_congr idle (start_congr limit hflat) rfl framing)
    -- room is short for both or for neither, as without limit both write the same
    rcases into_cases idle framing limit room s with ⟨hsame, hroom⟩ | ⟨n, seen, rfl, hlt, hfault, hwritten, -⟩
    · rcases into_cases idle framing limit room t with ⟨hsame', -⟩ | ⟨m, -, rfl, hlt', -⟩
      · exact (hsame.trans hfree).trans hsame'.symm
      · rw [← hfree.written] at hlt'
        exact absurd (hroom m rfl) (Nat.not_le.2 hlt')
    · rcases into_cases idle framing limit (some n) t with ⟨-, hroom⟩ | ⟨m, -, hm, -, hfault', hwritten', -⟩
      · rw [hfree.written] at hlt
        exact absurd (hroom n rfl) (Nat.not_le.2 hlt)
      · obtain rfl := Option.some.inj hm
        refine ⟨hfault.trans hfault'.symm, ?_, fun hne => absurd hfault hne⟩
        rw [hwritten, hwritten', hfree.written]

/-- Of what a full sink took, a tap with a buffer of one byte has seen all, and one with a buffer of two has seen nothing. -/
theorem relay_unseen_by_capacity :
    let bytes : List UInt8 := [0x30, 0x31]
    let o := relay none (into (some 1) 64 (.ofBytes 1 bytes .closed)) (.length 2)
    let o' := relay none (into (some 1) 64 (.ofBytes 2 bytes .closed)) (.length 2)
    o.fault? = some .write ∧ o'.fault? = some .write ∧ o.written = o'.written ∧ o.tap.total = 1 ∧ o'.tap.total = 0 ∧
      o.tap.preview ≠ o'.tap.preview ∧ o.rest ≠ o'.rest := by
  decide +kernel

end Passage
end Http
end SearchTelemetry
