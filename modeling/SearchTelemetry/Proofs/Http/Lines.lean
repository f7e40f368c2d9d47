import Mathlib.Data.List.Basic
import SearchTelemetry.Http.Source
/-!
# Http.Lines — lines of a stream, wherever it is cut

A line that is read is the line at the front of the bytes, if there is one within the limit, and what is left stands behind
it (`readLine_of_isLine`); where there is none, the reader says why (`readLine_spec`).  Where the stream is cut into segments
has no effect: a stream reads as it does when all of it has arrived (`flat_readLine`).

Lines make blocks: a block ends with its first empty line.
-/
namespace SearchTelemetry
namespace Http

/-- Text without a line feed in it, and a line feed. -/
def IsLine (l : List UInt8) : Prop :=
  ∃ t, 0x0A ∉ t ∧ l = t ++ [0x0A]

/-- Empty lines, any number of them. -/
inductive IsBlank : List UInt8 → Prop where
  | nil : IsBlank []
  | cons {l bs : List UInt8} : isEmptyLine l → IsBlank bs → IsBlank (l ++ bs)

/-- Lines of a kind up to and with an empty one. -/
inductive IsBlock (P : List UInt8 → Prop) : List UInt8 → Prop where
  | last {l : List UInt8} : P l → isEmptyLine l → IsBlock P l
  | cons {l bs : List UInt8} : P l → isEmptyLine l = false → IsBlock P bs → IsBlock P (l ++ bs)

theorem isLine_of_isEmptyLine {l : List UInt8} (h : isEmptyLine l) : IsLine l := by
  simp only [isEmptyLine, Bool.or_eq_true, beq_iff_eq] at h
  rcases h with rfl | rfl
  · exact ⟨[0x0D], by decide, rfl⟩
  · exact ⟨[], by decide, rfl⟩

theorem length_of_isEmptyLine {l : List UInt8} (h : isEmptyLine l) : 1 ≤ l.length ∧ l.length ≤ 2 := by
  simp only [isEmptyLine, Bool.or_eq_true, beq_iff_eq] at h
  rcases h with rfl | rfl
  · exact ⟨by decide, by decide⟩
  · exact ⟨by decide, by decide⟩

theorem IsLine.mem {l : List UInt8} (h : IsLine l) : 0x0A ∈ l := by
  obtain ⟨t, -, rfl⟩ := h
  simp

theorem IsLine.ne_nil {l : List UInt8} (h : IsLine l) : l ≠ [] :=
  List.ne_nil_of_mem h.mem

/-- The line at the front of bytes is the only one there. -/
theorem IsLine.append_inj {l l' a b : List UInt8} (h : IsLine l) (h' : IsLine l') (heq : l ++ a = l' ++ b) :
    l = l' ∧ a = b := by
  obtain ⟨t, ht, rfl⟩ := h
  obtain ⟨t', ht', rfl⟩ := h'
  rw [List.append_assoc, List.append_assoc, List.singleton_append, List.singleton_append] at heq
  have htake : ∀ (t a : List UInt8), 0x0A ∉ t → (t ++ 0x0A :: a).takeWhile (· ≠ 0x0A) = t := fun t a ht => by
    have hall : ∀ b ∈ t, decide (b ≠ 0x0A) = true := fun b hb => decide_eq_true fun heq => ht (heq ▸ hb)
    rw [List.takeWhile_append_of_pos hall, List.takeWhile_cons_of_neg (by simp), List.append_nil]
  have htt : t = t' := by rw [← htake t a ht, heq, htake t' b ht']
  subst htt
  exact ⟨rfl, (List.cons.inj (List.append_cancel_left heq)).2⟩

theorem IsBlock.ne_nil {P : List UInt8 → Prop} {bs : List UInt8} (h : IsBlock P bs) : bs ≠ [] := by
  have hempty : isEmptyLine [] = false := rfl
  induction h with
  | last _ he =>
    rintro rfl
    rw [hempty] at he
    cases he
  | cons _ _ _ ih => exact fun heq => ih (List.append_eq_nil_iff.1 heq).2

namespace Source

/-- The stream when all of it has arrived. -/
def flat (s : Source) : Source :=
  ⟨s.bytes, [], s.ending⟩

theorem flat_eq_flat_iff {s t : Source} : s.flat = t.flat ↔ s.bytes = t.bytes ∧ s.ending = t.ending := by
  simp [flat]

/-! ## Buffers -/

theorem flatten_piecesLoop {width : Nat} (hwidth : 0 < width) (fuel : Nat) (acc : List (List UInt8)) (bs : List UInt8)
    (hfuel : bs.length ≤ fuel) : (piecesLoop width fuel acc bs).flatten = acc.reverse.flatten ++ bs := by
  fun_induction piecesLoop width fuel acc bs with
  | case1 acc bs =>
    obtain rfl := List.eq_nil_of_length_eq_zero (Nat.le_zero.1 hfuel)
    exact (List.append_nil _).symm
  | case2 fuel acc => exact (List.append_nil _).symm
  | case3 fuel acc b bs ih =>
    have hfits : ((b :: bs).drop width).length ≤ fuel := by
      rw [List.length_drop]
      omega
    rw [ih hfits, List.reverse_cons, List.flatten_append, List.flatten_singleton, List.append_assoc,
      List.take_append_drop]

/-- A buffer of any capacity gives the bytes that there are. -/
theorem bytes_ofBytes {capacity : Nat} (h : 0 < capacity) (bs : List UInt8) (ending : Ending) :
    (ofBytes capacity bs ending).bytes = bs :=
  flatten_piecesLoop h bs.length [] bs (Nat.le_refl _)

/-! ## What is read -/

/-- The line reader's loop, once its bytes have no line feed so far. -/
theorem lineLoop_spec (ending : Ending) (n : Nat) (acc buffer : List UInt8) (coming : List (List UInt8))
    (h : 0x0A ∉ acc) :
    let l := lineLoop ending n acc buffer coming
    l.rest.ending = ending ∧
      match l.stop with
      | .lineFeed => IsLine l.bytes ∧ l.bytes.length ≤ acc.length + n
      | .full => 0x0A ∉ l.bytes ∧ l.bytes.length = acc.length + n
      | .exhausted => 0x0A ∉ l.bytes ∧ l.bytes.length < acc.length + n ∧ l.rest.bytes = [] := by
  fun_induction lineLoop ending n acc buffer coming with
  | case1 => exact ⟨rfl, by simpa using h, by simp⟩
  | case2 => exact ⟨rfl, by simpa using h, by simp, rfl⟩
  | case3 n acc segment coming ih => exact ih h
  | case4 n acc bs coming =>
    refine ⟨rfl, ⟨acc.reverse, by simpa using h, by simp⟩, ?_⟩
    simp only [List.length_reverse, List.length_cons]
    omega
  | case5 n acc b bs coming hb ih =>
    have hmem : 0x0A ∉ b :: acc := by simpa [h] using fun heq => hb heq.symm
    obtain ⟨hending, hstop⟩ := ih hmem
    refine ⟨hending, ?_⟩
    rw [List.length_cons, Nat.add_right_comm, Nat.add_assoc] at hstop
    exact hstop

/-- **What a line reader finds**: a line with its line feed, or as many bytes as it may take with none among them, or all the
bytes that there are. -/
theorem readLine_spec (limit : Nat) (s : Source) :
    let l := s.readLine limit
    l.rest.ending = s.ending ∧
      match l.stop with
      | .lineFeed => IsLine l.bytes ∧ l.bytes.length ≤ limit
      | .full => 0x0A ∉ l.bytes ∧ l.bytes.length = limit
      | .exhausted => 0x0A ∉ l.bytes ∧ l.bytes.length < limit ∧ l.rest.bytes = [] := by
  simpa [readLine] using lineLoop_spec s.ending limit [] s.buffer s.coming (by simp)

theorem ending_readLine (limit : Nat) (s : Source) : (s.readLine limit).rest.ending = s.ending :=
  (readLine_spec limit s).1

/-- **A line at the front of the bytes is read**, unless it is too long. -/
theorem readLine_of_isLine {limit : Nat} {s : Source} {l more : List UInt8} (hl : IsLine l) (hlen : l.length ≤ limit)
    (hs : s.bytes = l ++ more) :
    (s.readLine limit).bytes = l ∧ (s.readLine limit).rest.bytes = more ∧ (s.readLine limit).stop = .lineFeed := by
  have hbytes := bytes_readLine limit s
  rw [hs] at hbytes
  obtain ⟨-, hstop⟩ := readLine_spec limit s
  cases h : (s.readLine limit).stop with
  | lineFeed =>
    simp only [h] at hstop
    obtain ⟨hbytes, hrest⟩ := hstop.1.append_inj hl hbytes
    exact ⟨hbytes, hrest, rfl⟩
  | full =>
    simp only [h] at hstop
    obtain ⟨hmem, hfull⟩ := hstop
    have hpre : l <+: (s.readLine limit).bytes :=
      List.prefix_of_prefix_length_le ⟨more, rfl⟩ ⟨_, hbytes⟩ (by omega)
    exact absurd (hpre.subset hl.mem) hmem
  | exhausted =>
    simp only [h] at hstop
    obtain ⟨hmem, -, hrest⟩ := hstop
    rw [hrest, List.append_nil] at hbytes
    rw [hbytes] at hmem
    exact absurd (List.mem_append_left _ hl.mem) hmem

/-! ## What is in the buffer -/

theorem ending_fill (s : Source) : s.fill.ending = s.ending := by
  unfold fill
  split <;> rfl

theorem flatten_of_firstFull (coming : List (List UInt8)) (h : (firstFull coming).1 = []) : coming.flatten = [] := by
  fun_induction firstFull coming with
  | case1 => rfl
  | case2 coming ih => exact ih h
  | case3 b bs coming => cases h

/-- A buffer that stays empty when it is filled is that of a stream with no more bytes. -/
theorem bytes_eq_nil_of_fill {s : Source} (h : s.fill.buffer = []) : s.bytes = [] := by
  unfold fill at h
  split at h
  · rename_i hb
    rw [bytes, List.isEmpty_iff.1 hb, flatten_of_firstFull _ h]
    rfl
  · rename_i hb
    exact absurd (List.isEmpty_iff.2 h) hb

theorem bytes_consume (n : Nat) (s : Source) : s.buffer.take n ++ (s.consume n).bytes = s.bytes := by
  rw [consume, bytes, ← List.append_assoc, List.take_append_drop]
  rfl

/-! ## Where a stream is cut -/

end Source

/-- The line, with all that follows it arrived. -/
def Source.Line.flat (l : Source.Line) : Source.Line :=
  { l with rest := l.rest.flat }

namespace Source

theorem flat_lineLoop (ending : Ending) (n : Nat) (acc buffer : List UInt8) (coming : List (List UInt8)) :
    (lineLoop ending n acc buffer coming).flat = (lineLoop ending n acc (buffer ++ coming.flatten) []).flat := by
  fun_induction lineLoop ending n acc buffer coming with
  | case1 => simp [lineLoop, Line.flat, flat, bytes]
  | case2 => simp [lineLoop]
  | case3 n acc segment coming ih => simpa using ih
  | case4 n acc bs coming => simp [lineLoop, Line.flat, flat, bytes]
  | case5 n acc b bs coming hb ih =>
    rw [ih, List.cons_append, lineLoop, if_neg hb]

theorem flat_readLine (limit : Nat) (s : Source) : (s.readLine limit).flat = (s.flat.readLine limit).flat := by
  unfold readLine
  rw [flat_lineLoop, flat_lineLoop s.flat.ending]
  simp [flat, bytes]

/-- **Where a stream is cut has no effect on the lines that are read from it.** -/
theorem readLine_congr {s t : Source} (h : s.flat = t.flat) (limit : Nat) :
    (s.readLine limit).bytes = (t.readLine limit).bytes ∧ (s.readLine limit).stop = (t.readLine limit).stop ∧
      (s.readLine limit).rest.flat = (t.readLine limit).rest.flat := by
  have heq : (s.readLine limit).flat = (t.readLine limit).flat := by rw [flat_readLine, h, ← flat_readLine]
  exact ⟨congrArg (·.bytes) heq, congrArg (·.stop) heq, congrArg (·.rest) heq⟩

end Source
end Http
end SearchTelemetry
