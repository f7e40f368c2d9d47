import SearchTelemetry.Proofs.Http.Heads
/-!
# Http.FirstHead — the head that is read is the first one there

Behind the empty lines at the front of a stream, the first head is the shortest front that ends with an empty line
(`IsFirstHead`).  That is the head that is read, if it fits the limit; otherwise the reader says what is in its way, and at
most one byte more than the limit is gone (`readHead_findsHead`).
-/
namespace SearchTelemetry
namespace Http

/-! ## The first head of some bytes -/

/-- The bytes behind the empty lines at their front. -/
def behindBlank : List UInt8 → List UInt8
  | 0x0A :: bs => behindBlank bs
  | 0x0D :: 0x0A :: bs => behindBlank bs
  | bs => bs

/-- These bytes end with an empty line, and it stands at the start of a line. -/
def EndsEmpty (bs : List UInt8) : Prop :=
  ∃ front l, bs = front ++ l ∧ isEmptyLine l ∧ (front = [] ∨ front.getLast? = some 0x0A)

/-- The shortest front of the bytes that ends with an empty line. -/
structure IsFirstHead (h bs : List UInt8) : Prop where
  front : h <+: bs
  ends : EndsEmpty h
  shortest : ∀ h', h' <+: bs → EndsEmpty h' → h.length ≤ h'.length

variable {l t h bs more tail blank : List UInt8}

theorem length_behindBlank_le (bs : List UInt8) : (behindBlank bs).length ≤ bs.length := by
  fun_induction behindBlank bs with
  | case1 bs ih => exact Nat.le_succ_of_le ih
  | case2 bs ih => exact Nat.le_succ_of_le (Nat.le_succ_of_le ih)
  | case3 bs => exact Nat.le_refl _

theorem exists_blank (bs : List UInt8) : ∃ blank, IsBlank blank ∧ bs = blank ++ behindBlank bs := by
  fun_induction behindBlank bs with
  | case1 bs ih =>
    obtain ⟨blank, hblank, heq⟩ := ih
    exact ⟨[0x0A] ++ blank, .cons rfl hblank, congrArg (0x0A :: ·) heq⟩
  | case2 bs ih =>
    obtain ⟨blank, hblank, heq⟩ := ih
    exact ⟨[0x0D, 0x0A] ++ blank, .cons rfl hblank, congrArg (0x0D :: 0x0A :: ·) heq⟩
  | case3 bs => exact ⟨[], .nil, rfl⟩

theorem behindBlank_emptyLine (hl : isEmptyLine l) (bs : List UInt8) : behindBlank (l ++ bs) = behindBlank bs := by
  simp only [isEmptyLine, Bool.or_eq_true, beq_iff_eq] at hl
  rcases hl with rfl | rfl
  · exact behindBlank.eq_2 bs
  · exact behindBlank.eq_1 bs

theorem behindBlank_append (hblank : IsBlank blank) (bs : List UInt8) : behindBlank (blank ++ bs) = behindBlank bs := by
  induction hblank with
  | nil => rfl
  | cons hl _ ih => rw [List.append_assoc, behindBlank_emptyLine hl, ih]

theorem behindBlank_behindBlank (bs : List UInt8) : behindBlank (behindBlank bs) = behindBlank bs := by
  obtain ⟨blank, hblank, heq⟩ := exists_blank bs
  have hbehind := behindBlank_append hblank (behindBlank bs)
  rw [← heq] at hbehind
  exact hbehind.symm

/-- A line that is not empty is the first thing behind empty lines. -/
theorem behindBlank_line (hl : IsLine l) (hempty : isEmptyLine l = false) : behindBlank (l ++ more) = l ++ more := by
  have hne : ∀ e bs, isEmptyLine e → l ++ more ≠ e ++ bs := by
    intro e bs he heq
    rw [(hl.append_inj (isLine_of_isEmptyLine he) heq).1, he] at hempty
    cases hempty
  unfold behindBlank
  split
  · rename_i bs heq
    exact absurd heq (hne [0x0A] bs rfl)
  · rename_i bs heq
    exact absurd heq (hne [0x0D, 0x0A] bs rfl)
  · rfl

/-- And so is what has no line feed among its first bytes. -/
theorem behindBlank_text (ht : 0x0A ∉ t) (hmore : more = [] ∨ 2 ≤ t.length) : behindBlank (t ++ more) = t ++ more := by
  unfold behindBlank
  split
  · rename_i bs heq
    cases t with
    | nil =>
      rcases hmore with rfl | hmore
      · cases heq
      · cases hmore
    | cons a t => exact absurd ((List.cons.inj heq).1 ▸ List.mem_cons_self) ht
  · rename_i bs heq
    match t with
    | [] =>
      rcases hmore with rfl | hmore
      · cases heq
      · cases hmore
    | [a] =>
      rcases hmore with rfl | hmore
      · cases heq
      · exact absurd hmore (by simp)
    | a :: b :: t =>
      have hb := (List.cons.inj (List.cons.inj heq).2).1
      exact absurd (hb ▸ List.mem_cons_of_mem _ List.mem_cons_self) ht
  · rfl

theorem endsEmpty_of_isBlock (h : IsBlock IsLine bs) : EndsEmpty bs := by
  induction h with
  | last _ hempty => exact ⟨[], _, rfl, hempty, .inl rfl⟩
  | @cons l bs hl _ _ ih =>
    obtain ⟨front, e, rfl, he, hfront⟩ := ih
    refine ⟨l ++ front, e, (List.append_assoc _ _ _).symm, he, .inr ?_⟩
    rcases hfront with rfl | hfront
    · obtain ⟨t, -, rfl⟩ := hl
      rw [List.append_nil, List.getLast?_append]
      rfl
    · rw [List.getLast?_append, hfront]
      rfl

/-- A line feed in the front of a line and more is not in front of the line's own. -/
theorem prefix_of_mem (hl : IsLine l) (hpre : h <+: l ++ more) (hmem : 0x0A ∈ h) : l <+: h := by
  rcases List.prefix_or_prefix_of_prefix hpre (List.prefix_append l more) with hle | hle
  · obtain ⟨t, ht, rfl⟩ := hl
    obtain ⟨rest, hrest⟩ := hle
    rcases List.eq_nil_or_concat rest with rfl | ⟨rest, b, rfl⟩
    · rw [List.append_nil] at hrest
      exact hrest ▸ List.prefix_refl _
    · rw [List.concat_eq_append, ← List.append_assoc] at hrest
      exact absurd ((List.append_inj' hrest rfl).1 ▸ List.mem_append_left _ hmem) ht
  · exact hle

/-- What ends with an empty line and has another line in front ends so behind that line. -/
theorem EndsEmpty.of_append (hl : IsLine l) (hempty : isEmptyLine l = false) (hpre : h <+: l ++ more) (hends : EndsEmpty h) :
    ∃ h', h = l ++ h' ∧ h' <+: more ∧ EndsEmpty h' := by
  obtain ⟨front, e, rfl, he, hfront⟩ := hends
  rcases hfront with rfl | hfront
  · obtain ⟨rest, hrest⟩ := hpre
    rw [List.nil_append] at hrest
    rw [← ((isLine_of_isEmptyLine he).append_inj hl hrest).1, he] at hempty
    cases hempty
  · obtain ⟨front', rfl⟩ := prefix_of_mem hl ((List.prefix_append _ _).trans hpre) (List.mem_of_getLast? hfront)
    rw [List.append_assoc] at hpre
    refine ⟨front' ++ e, List.append_assoc _ _ _, (List.prefix_append_right_inj l).1 hpre, front', e, rfl, he, ?_⟩
    rcases List.eq_nil_or_concat front' with rfl | ⟨init, b, rfl⟩
    · exact .inl rfl
    · refine .inr ?_
      rw [List.concat_eq_append, ← List.append_assoc, List.getLast?_concat] at hfront
      rw [List.concat_eq_append, List.getLast?_concat, hfront]

theorem IsBlock.length_le (hblock : IsBlock IsLine bs) (hpre : h <+: bs ++ tail) (hends : EndsEmpty h) :
    bs.length ≤ h.length := by
  induction hblock generalizing h with
  | last hl hempty =>
    obtain ⟨front, e, rfl, he, -⟩ := hends
    exact (prefix_of_mem hl hpre (List.mem_append_right _ (isLine_of_isEmptyLine he).mem)).length_le
  | @cons l bs hl hempty _ ih =>
    rw [List.append_assoc] at hpre
    obtain ⟨h', rfl, hpre', hends'⟩ := hends.of_append hl hempty hpre
    have := ih hpre' hends'
    simp only [List.length_append]
    omega

/-- **A head is the first one where it stands.** -/
theorem IsHead.isFirstHead (hhead : IsHead h) (tail : List UInt8) : IsFirstHead h (h ++ tail) where
  front := List.prefix_append h tail
  ends := endsEmpty_of_isBlock hhead.1
  shortest _ hpre hends := hhead.1.length_le hpre hends

theorem exists_line (h : 0x0A ∈ bs) : ∃ l more, IsLine l ∧ bs = l ++ more := by
  obtain ⟨t, more, rfl, ht⟩ := List.eq_append_cons_of_mem h
  exact ⟨t ++ [0x0A], more, ⟨t, ht, rfl⟩, by simp⟩

/-- What ends with an empty line begins with a block. -/
theorem EndsEmpty.exists_isBlock (hends : EndsEmpty h) : ∃ bs, IsBlock IsLine bs ∧ bs <+: h := by
  induction hlen : h.length using Nat.strongRecOn generalizing h with
  | _ n ih =>
    obtain ⟨front, e, hh, he, -⟩ := id hends
    have hmem : 0x0A ∈ h := hh ▸ List.mem_append_right _ (isLine_of_isEmptyLine he).mem
    obtain ⟨l, more, hl, rfl⟩ := exists_line hmem
    cases hempty : isEmptyLine l with
    | true => exact ⟨l, .last hl hempty, List.prefix_append l more⟩
    | false =>
      obtain ⟨h', heq, -, hends'⟩ := hends.of_append hl hempty (List.prefix_refl _)
      obtain rfl := List.append_cancel_left heq
      have hlt : more.length < n := by
        have := List.length_pos_iff.2 hl.ne_nil
        rw [← hlen, List.length_append]
        omega
      obtain ⟨bs, hbs, hpre⟩ := ih more.length hlt hends' rfl
      exact ⟨l ++ bs, .cons hl hempty hbs, (List.prefix_append_right_inj l).2 hpre⟩

/-- **The first head behind empty lines is a head.** -/
theorem IsFirstHead.isHead (hfirst : IsFirstHead h (behindBlank bs)) : IsHead h := by
  obtain ⟨block, hblock, hpre⟩ := hfirst.ends.exists_isBlock
  have hle := hfirst.shortest block (hpre.trans hfirst.front) (endsEmpty_of_isBlock hblock)
  obtain rfl := hpre.eq_of_length_le hle
  refine ⟨hblock, Bool.eq_false_iff.2 fun hempty => ?_⟩
  -- an empty line would have been taken off the front with the others
  obtain ⟨rest, hrest⟩ := hfirst.front
  have hbehind : behindBlank rest = behindBlank bs := by
    rw [← behindBlank_emptyLine hempty, hrest, behindBlank_behindBlank]
  have hle := length_behindBlank_le rest
  have hpos := List.length_pos_iff.2 hblock.ne_nil
  rw [hbehind, ← hrest, List.length_append] at hle
  omega

/-! ## The reader, and what it leaves -/

variable {max : Nat} {acc raw : List UInt8} {s rest : Source} {ending : Ending}

/-- What reading comes to at the end of a stream, behind the lines in `acc`. -/
def headAtEnd (ending : Ending) (acc : List UInt8) : Reading (List UInt8) :=
  match ending with
  | .quiet => .quiet
  | .closed => if acc.isEmpty then .closed else .refused headCut

/-- The reader's loop, with what it has left of the stream when it stops, whatever it comes to. -/
def headRun (max : Nat) (acc : List UInt8) (s : Source) : Reading (List UInt8) × Source :=
  let line := s.readLine (max + 1 - acc.length)
  let collected := line.bytes.reverse ++ acc
  if max < collected.length then (.refused (headTooLong max), line.rest)
  else if _ : line.bytes = [] then (headAtEnd s.ending acc, line.rest)
  else if isEmptyLine line.bytes then
    if acc.isEmpty then headRun max [] line.rest else (.message collected.reverse line.rest, line.rest)
  else headRun max collected line.rest
termination_by s.size
decreasing_by
  all_goals
    have : line.bytes.length + line.rest.size = s.size := Source.size_readLine _ s
    have := List.length_pos_iff.2 ‹¬line.bytes = []›
    show line.rest.size < s.size
    omega

theorem headRun_fst (max : Nat) (acc : List UInt8) (s : Source) : (headRun max acc s).1 = headLoop max acc s := by
  fun_induction headRun max acc s with
  | case1 acc s line collected hlong => rw [headLoop, if_pos hlong]
  | case2 acc s line collected hlong hnil =>
    rw [headLoop, if_neg hlong, dif_pos hnil]
    rfl
  | case3 acc s line collected hlong hnil hempty hacc ih =>
    rw [headLoop.eq_1 max acc s, if_neg hlong, dif_neg hnil, if_pos hempty, if_pos hacc, ih]
  | case4 acc s line collected hlong hnil hempty hacc =>
    rw [headLoop, if_neg hlong, dif_neg hnil, if_pos hempty, if_neg hacc]
  | case5 acc s line collected hlong hnil hempty ih =>
    rw [headLoop.eq_1 max acc s, if_neg hlong, dif_neg hnil, if_neg hempty, ih]

theorem headRun_message (h : (headRun max acc s).1 = .message raw rest) : (headRun max acc s).2 = rest := by
  fun_induction headRun max acc s with
  | case1 => cases h
  | case2 acc s =>
    unfold headAtEnd at h
    repeat' split at h
    all_goals cases h
  | case3 acc s line collected hlong hnil hempty hacc ih => exact ih h
  | case4 acc s line collected hlong hnil hempty hacc =>
    cases h
    rfl
  | case5 acc s line collected hlong hnil hempty ih => exact ih h

/-- How a reader stops that finds no head: at the end of the stream, or with one byte more than a head may have. -/
structure Stops (max : Nat) (ending : Ending) (acc blank taken left : List UInt8) (r : Reading (List UInt8)) : Prop where
  isBlank : IsBlank blank
  only_first : acc ≠ [] → blank = []
  behind : acc = [] → behindBlank (taken ++ left) = taken ++ left
  because : left = [] ∧ acc.length + taken.length ≤ max ∧ r = headAtEnd ending (taken.reverse ++ acc) ∨
    acc.length + taken.length = max + 1 ∧ r = .refused (headTooLong max)

/-- A line that is read, and is not an empty one, stands behind empty lines. -/
theorem behindBlank_readLine {limit : Nat} (hlimit : 2 ≤ limit)
    (hempty : isEmptyLine (s.readLine limit).bytes = false) : behindBlank s.bytes = s.bytes := by
  obtain ⟨-, hstop⟩ := Source.readLine_spec limit s
  rw [← Source.bytes_readLine limit s]
  cases h : (s.readLine limit).stop with
  | lineFeed =>
    rw [h] at hstop
    exact behindBlank_line hstop.1 hempty
  | full =>
    rw [h] at hstop
    exact behindBlank_text hstop.1 (.inr (hstop.2.symm ▸ hlimit))
  | exhausted =>
    rw [h] at hstop
    exact behindBlank_text hstop.1 (.inl hstop.2.2)

theorem length_readLine_le (limit : Nat) (s : Source) : (s.readLine limit).bytes.length ≤ limit := by
  obtain ⟨-, hstop⟩ := Source.readLine_spec limit s
  cases h : (s.readLine limit).stop with
  | lineFeed => rw [h] at hstop; exact hstop.2
  | full => rw [h] at hstop; exact Nat.le_of_eq hstop.2
  | exhausted => rw [h] at hstop; exact Nat.le_of_lt hstop.2.1

/-- **A reader that gives no head** has taken empty lines, and then all that there is or one byte too many. -/
theorem headRun_stops (hmax : 2 ≤ max) (acc : List UInt8) (s : Source) (hacc : acc.length ≤ max)
    (hno : ∀ raw rest, (headRun max acc s).1 ≠ .message raw rest) :
    ∃ blank taken, s.bytes = blank ++ (taken ++ (headRun max acc s).2.bytes) ∧
      Stops max s.ending acc blank taken (headRun max acc s).2.bytes (headRun max acc s).1 := by
  fun_induction headRun max acc s with
  | case1 acc s line collected hlong =>
    have hbytes : line.bytes ++ line.rest.bytes = s.bytes := Source.bytes_readLine _ s
    have hcollected : collected.length = line.bytes.length + acc.length := by simp [collected]
    have hle : line.bytes.length ≤ max + 1 - acc.length := length_readLine_le _ s
    refine ⟨[], line.bytes, hbytes.symm, .nil, fun _ => rfl, ?_, .inr ⟨by omega, rfl⟩⟩
    rintro rfl
    have hempty : isEmptyLine line.bytes = false := Bool.eq_false_iff.2 fun h => by
      have := (length_of_isEmptyLine h).2
      simp only [List.length_nil] at hcollected
      omega
    rw [hbytes]
    exact behindBlank_readLine (by simp only [List.length_nil]; omega) hempty
  | case2 acc s line collected hlong hnil =>
    have hbytes : line.bytes ++ line.rest.bytes = s.bytes := Source.bytes_readLine _ s
    have hshort : line.bytes.length < max + 1 - acc.length := by
      rw [hnil, List.length_nil]
      omega
    rcases isLine_or_of_lt hshort with hline | hrest
    · exact absurd hnil hline.ne_nil
    · rw [hnil] at hbytes
      exact ⟨[], [], hbytes.symm, .nil, fun _ => rfl, fun _ => congrArg behindBlank hrest |>.trans hrest.symm,
        .inl ⟨hrest, by simpa using hacc, rfl⟩⟩
  | case3 acc s line collected hlong hnil hempty hnone ih =>
    have hbytes : line.bytes ++ line.rest.bytes = s.bytes := Source.bytes_readLine _ s
    obtain rfl := List.isEmpty_iff.1 hnone
    obtain ⟨blank, taken, hs, hstops⟩ := ih hacc hno
    rw [Source.ending_readLine] at hstops
    refine ⟨line.bytes ++ blank, taken, ?_, .cons hempty hstops.isBlank, absurd rfl, hstops.behind, hstops.because⟩
    rw [← hbytes, hs, List.append_assoc]
  | case4 acc s line collected hlong hnil hempty hnone => exact absurd rfl (hno _ _)
  | case5 acc s line collected hlong hnil hempty ih =>
    have hbytes : line.bytes ++ line.rest.bytes = s.bytes := Source.bytes_readLine _ s
    have hcollected : collected.length = line.bytes.length + acc.length := by simp [collected]
    have hne : collected ≠ [] := by simp [collected, hnil]
    obtain ⟨blank, taken, hs, hstops⟩ := ih (Nat.le_of_not_lt hlong) hno
    obtain rfl := hstops.only_first hne
    rw [Source.ending_readLine] at hstops
    have heq : s.bytes = line.bytes ++ taken ++ (headRun max collected line.rest).2.bytes := by
      rw [← hbytes, hs, List.nil_append, List.append_assoc]
    refine ⟨[], line.bytes ++ taken, heq, .nil, fun _ => rfl, ?_, ?_⟩
    · rintro rfl
      rw [← heq]
      exact behindBlank_readLine (by simp only [List.length_nil]; omega) (Bool.eq_false_iff.2 hempty)
    · have hlen : acc.length + (line.bytes ++ taken).length = collected.length + taken.length := by
        rw [hcollected, List.length_append]
        omega
      have hacc : (line.bytes ++ taken).reverse ++ acc = taken.reverse ++ collected := by simp [collected]
      rw [hlen, hacc]
      exact hstops.because

/-! ## What is found -/

/-- What a reader of heads comes to, by the bytes of the stream and nothing else. -/
structure FindsHead (max : Nat) (s : Source) : Prop where
  /-- A stream that closes behind empty lines has no head. -/
  nothing : behindBlank s.bytes = [] → s.ending = .closed → readHead max s = .closed
  /-- The first head is given, if it fits, and just what follows it is left. -/
  found : ∀ h, IsFirstHead h (behindBlank s.bytes) → h.length ≤ max →
    ∃ rest, readHead max s = .message h rest ∧ (headRun max [] s).2 = rest ∧ rest.ending = s.ending ∧
      behindBlank s.bytes = h ++ rest.bytes
  /-- A stream that closes inside a head is cut. -/
  cut : (¬∃ h, IsFirstHead h (behindBlank s.bytes)) → behindBlank s.bytes ≠ [] → (behindBlank s.bytes).length ≤ max →
    s.ending = .closed → readHead max s = .refused headCut
  /-- A stream that does not close is waited for. -/
  waits : (¬∃ h, IsFirstHead h (behindBlank s.bytes)) → (behindBlank s.bytes).length ≤ max → s.ending = .quiet →
    readHead max s = .quiet
  /-- In all other cases the head is too long, and that is found out with the first byte that is too much. -/
  tooLong : (∀ h, IsFirstHead h (behindBlank s.bytes) → max < h.length) → max < (behindBlank s.bytes).length →
    readHead max s = .refused (headTooLong max) ∧
      ∃ taken, behindBlank s.bytes = taken ++ (headRun max [] s).2.bytes ∧ taken.length = max + 1

theorem no_message (h : ∀ h, IsFirstHead h (behindBlank s.bytes) → max < h.length) (raw : List UInt8) (rest : Source) :
    (headRun max [] s).1 ≠ .message raw rest := by
  rw [headRun_fst]
  intro hmessage
  obtain ⟨blank, hblank, hhead, hlen, hs, -⟩ := readHead_message hmessage
  have hbehind : behindBlank s.bytes = raw ++ rest.bytes := by
    obtain ⟨l, bs, rfl, hl, hempty, -⟩ := hhead.exists_cons
    rw [hs, behindBlank_append hblank, List.append_assoc, behindBlank_line hl hempty]
  have hlong := h raw (hbehind ▸ hhead.isFirstHead rest.bytes)
  omega

/-- Without a head that fits, the reader stops for one of two reasons, and the length of the bytes says for which. -/
theorem stops_of_no_head (hmax : 2 ≤ max) (h : ∀ h, IsFirstHead h (behindBlank s.bytes) → max < h.length) :
    ((behindBlank s.bytes).length ≤ max ∧ readHead max s = headAtEnd s.ending (behindBlank s.bytes).reverse) ∨
      readHead max s = .refused (headTooLong max) ∧
        ∃ taken, behindBlank s.bytes = taken ++ (headRun max [] s).2.bytes ∧ taken.length = max + 1 := by
  obtain ⟨blank, taken, hs, hstops⟩ := headRun_stops hmax [] s (Nat.zero_le max) (no_message h)
  have hbehind : behindBlank s.bytes = taken ++ (headRun max [] s).2.bytes := by
    rw [hs, behindBlank_append hstops.isBlank, hstops.behind rfl]
  rcases hstops.because with ⟨hleft, hlen, heq⟩ | ⟨hlen, heq⟩
  · rw [headRun_fst, List.append_nil] at heq
    rw [hleft, List.append_nil] at hbehind
    rw [List.length_nil, Nat.zero_add] at hlen
    rw [hbehind]
    exact .inl ⟨hlen, heq⟩
  · rw [headRun_fst] at heq
    rw [List.length_nil, Nat.zero_add] at hlen
    exact .inr ⟨heq, taken, hbehind, hlen⟩

theorem readHead_of_isFirstHead (hfirst : IsFirstHead h (behindBlank s.bytes)) (hlen : h.length ≤ max) :
    ∃ rest, readHead max s = .message h rest ∧ rest.ending = s.ending ∧ behindBlank s.bytes = h ++ rest.bytes := by
  obtain ⟨tail, htail⟩ := hfirst.front
  obtain ⟨blank, hblank, hs⟩ := exists_blank s.bytes
  rw [← htail] at hs
  obtain ⟨rest, hrest, hending, heq⟩ := readHead_of_isHead hblank hfirst.isHead hlen hs
  exact ⟨rest, heq, hending, by rw [← htail, hrest]⟩

theorem headAtEnd_closed (h : acc ≠ []) : headAtEnd .closed acc.reverse = .refused headCut :=
  if_neg fun hnil => h (List.reverse_eq_nil_iff.1 (List.isEmpty_iff.1 hnil))

/-- **The head that is read is the first one there**, up to the limit and not one byte further, wherever the stream is cut:
a reader of heads ends on every stream, and the bytes of the stream alone say how. -/
theorem readHead_findsHead (hmax : 2 ≤ max) (s : Source) : FindsHead max s := by
  have hlong_of_none : (¬∃ h, IsFirstHead h (behindBlank s.bytes)) →
      ∀ h, IsFirstHead h (behindBlank s.bytes) → max < h.length := fun hnone h hh => absurd ⟨h, hh⟩ hnone
  constructor
  case nothing =>
    intro hnil hclosed
    have hnone : ¬∃ h, IsFirstHead h (behindBlank s.bytes) := by
      rintro ⟨h, hh⟩
      have hfront := hh.front
      rw [hnil] at hfront
      exact hh.isHead.ne_nil (List.prefix_nil.1 hfront)
    rcases stops_of_no_head hmax (hlong_of_none hnone) with ⟨-, heq⟩ | ⟨-, taken, htaken, hlen⟩
    · rw [heq, hnil, hclosed]
      rfl
    · have := congrArg List.length (hnil.symm.trans htaken)
      rw [List.length_nil, List.length_append] at this
      omega
  case found =>
    intro h hh hlen
    obtain ⟨rest, heq, hending, hbehind⟩ := readHead_of_isFirstHead hh hlen
    have hleft : (headRun max [] s).1 = .message h rest := (headRun_fst max [] s).trans heq
    exact ⟨rest, heq, headRun_message hleft, hending, hbehind⟩
  case cut =>
    intro hnone hne hlen hclosed
    rcases stops_of_no_head hmax (hlong_of_none hnone) with ⟨-, heq⟩ | ⟨-, taken, htaken, hover⟩
    · rw [heq, hclosed, headAtEnd_closed hne]
    · rw [htaken, List.length_append] at hlen
      omega
  case waits =>
    intro hnone hlen hquiet
    rcases stops_of_no_head hmax (hlong_of_none hnone) with ⟨-, heq⟩ | ⟨-, taken, htaken, hover⟩
    · rw [heq, hquiet]
      rfl
    · rw [htaken, List.length_append] at hlen
      omega
  case tooLong =>
    intro hlong hover
    rcases stops_of_no_head hmax hlong with ⟨hlen, -⟩ | hstop
    · omega
    · exact hstop

/-- A head of just the limit, behind an empty line, and one byte behind it. -/
theorem readHead_findsHead_full :
    2 ≤ 3 ∧ FindsHead 3 (.ofBytes 2 [0x0D, 0x0A, 0x41, 0x0A, 0x0A, 0x42] .closed) ∧
      IsFirstHead [0x41, 0x0A, 0x0A] (behindBlank [0x0D, 0x0A, 0x41, 0x0A, 0x0A, 0x42]) :=
  ⟨by decide, readHead_findsHead (by decide) _,
    (IsHead.cons ⟨[0x41], by decide, rfl⟩ rfl (.last ⟨[], by decide, rfl⟩ rfl)).isFirstHead [0x42]⟩

end Http
end SearchTelemetry
