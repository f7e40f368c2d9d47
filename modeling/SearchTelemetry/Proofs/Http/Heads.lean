import SearchTelemetry.Http.Head
import SearchTelemetry.Proofs.Http.Lines
/-!
# Http.Heads — where a head begins and ends

A head is a block of lines that does not begin with an empty one (`IsHead`).  A reader of heads gives the first that there
is, and leaves what stands behind it (`readHead_message`, `readHead_of_isHead`); it skips nothing but empty lines; and where the
stream is cut has no effect (`readHead_congr`).
-/
namespace SearchTelemetry
namespace Http

/-- A head as it came: lines up to and with an empty one, which is not the first. -/
def IsHead (raw : List UInt8) : Prop :=
  IsBlock IsLine raw ∧ isEmptyLine raw = false

theorem isEmptyLine_append {l bs : List UInt8} (hl : IsLine l) (hbs : bs ≠ []) : isEmptyLine (l ++ bs) = false := by
  refine Bool.eq_false_iff.2 fun h => hbs ?_
  have happ : l ++ bs = (l ++ bs) ++ [] := (List.append_nil _).symm
  exact (hl.append_inj (isLine_of_isEmptyLine h) happ).2

theorem IsHead.cons {l bs : List UInt8} (hl : IsLine l) (hempty : isEmptyLine l = false) (hbs : IsBlock IsLine bs) :
    IsHead (l ++ bs) :=
  ⟨.cons hl hempty hbs, isEmptyLine_append hl hbs.ne_nil⟩

theorem IsHead.exists_cons {raw : List UInt8} (h : IsHead raw) :
    ∃ l bs, raw = l ++ bs ∧ IsLine l ∧ isEmptyLine l = false ∧ IsBlock IsLine bs := by
  obtain ⟨hblock, hempty⟩ := h
  cases hblock with
  | last _ he => rw [he] at hempty; cases hempty
  | @cons l bs hl he hbs => exact ⟨l, bs, rfl, hl, he, hbs⟩

theorem IsHead.ne_nil {raw : List UInt8} (h : IsHead raw) : raw ≠ [] :=
  h.1.ne_nil

/-- A head that fits a limit leaves room for any empty line. -/
theorem IsHead.two_le_length {raw : List UInt8} (h : IsHead raw) : 2 ≤ raw.length := by
  obtain ⟨l, bs, rfl, hl, -, hbs⟩ := h.exists_cons
  have := List.length_pos_iff.2 hl.ne_nil
  have := List.length_pos_iff.2 hbs.ne_nil
  rw [List.length_append]
  omega

/-! ## The heads that are read -/

variable {max : Nat} {acc raw l blank tail more : List UInt8} {s t rest : Source}

theorem isLine_or_of_lt {limit : Nat} (h : (s.readLine limit).bytes.length < limit) :
    IsLine (s.readLine limit).bytes ∨ (s.readLine limit).rest.bytes = [] := by
  obtain ⟨-, hstop⟩ := Source.readLine_spec limit s
  cases hs : (s.readLine limit).stop with
  | lineFeed =>
    rw [hs] at hstop
    exact .inl hstop.1
  | full =>
    rw [hs] at hstop
    exact absurd hstop.2 (Nat.ne_of_lt h)
  | exhausted =>
    rw [hs] at hstop
    exact .inr hstop.2.2

theorem headLoop_ne_message (hs : s.bytes = []) : headLoop max acc s ≠ .message raw rest := by
  intro h
  have hlt := size_headLoop h
  rw [← Source.length_bytes s, hs] at hlt
  exact Nat.not_lt_zero _ hlt

/-- Behind the lines in `acc`, the rest of a head is read. -/
theorem headLoop_message (h : headLoop max acc s = .message raw rest) :
    ∃ blank more, IsBlank blank ∧ IsBlock IsLine more ∧ (acc ≠ [] → blank = []) ∧ (acc = [] → IsHead more) ∧
      raw = acc.reverse ++ more ∧ raw.length ≤ max ∧ s.bytes = blank ++ (more ++ rest.bytes) ∧
      rest.ending = s.ending := by
  fun_induction headLoop max acc s with
  | case1 acc s line collected hlong => cases h
  | case2 acc s line collected hlong hnil hending => cases h
  | case3 acc s line collected hlong hnil hending hacc => cases h
  | case4 acc s line collected hlong hnil hending hacc => cases h
  | case5 acc s line collected hlong hnil hempty hacc ih =>
    obtain rfl := List.isEmpty_iff.1 hacc
    have hbytes : line.bytes ++ line.rest.bytes = s.bytes := Source.bytes_readLine _ s
    obtain ⟨blank, more, hblank, hmore, -, hhead, hraw, hlen, hs, hend⟩ := ih h
    refine ⟨line.bytes ++ blank, more, .cons hempty hblank, hmore, absurd rfl, hhead, hraw, hlen, ?_, ?_⟩
    · rw [← hbytes, hs, List.append_assoc]
    · exact hend.trans (Source.ending_readLine _ s)
  | case6 acc s line collected hlong hnil hempty hacc =>
    cases h
    have hbytes : line.bytes ++ line.rest.bytes = s.bytes := Source.bytes_readLine _ s
    refine ⟨[], line.bytes, .nil, .last (isLine_of_isEmptyLine hempty) hempty, fun _ => rfl, ?_, ?_, ?_,
      hbytes.symm, Source.ending_readLine _ s⟩
    · rintro rfl
      exact absurd rfl hacc
    · simp [collected]
    · rw [List.length_reverse]
      exact Nat.le_of_not_lt hlong
  | case7 acc s line collected hlong hnil hempty ih =>
    have hbytes : line.bytes ++ line.rest.bytes = s.bytes := Source.bytes_readLine _ s
    have hlen : collected.length = line.bytes.length + acc.length := by simp [collected]
    have hshort : line.bytes.length < max + 1 - acc.length := by omega
    have hcollected : collected ≠ [] := by simp [collected, hnil]
    rcases isLine_or_of_lt hshort with hline | hrest
    · obtain ⟨blank, more, -, hmore, hblank, -, hraw, hlen, hs, hend⟩ := ih h
      obtain rfl := hblank hcollected
      have hblock : IsBlock IsLine (line.bytes ++ more) := .cons hline (Bool.eq_false_iff.2 hempty) hmore
      refine ⟨[], line.bytes ++ more, .nil, hblock, fun _ => rfl,
        fun _ => .cons hline (Bool.eq_false_iff.2 hempty) hmore, ?_, hlen, ?_, ?_⟩
      · simp [hraw, collected]
      · rw [← hbytes, hs, List.nil_append, List.nil_append, List.append_assoc]
      · exact hend.trans (Source.ending_readLine _ s)
    · exact absurd h (headLoop_ne_message hrest)

/-- **A head that is read was there**, behind empty lines, and fits the limit. -/
theorem readHead_message (h : readHead max s = .message raw rest) :
    ∃ blank, IsBlank blank ∧ IsHead raw ∧ raw.length ≤ max ∧ s.bytes = blank ++ (raw ++ rest.bytes) ∧
      rest.ending = s.ending := by
  obtain ⟨blank, more, hblank, -, -, hhead, rfl, hlen, hs, hend⟩ := headLoop_message h
  exact ⟨blank, hblank, hhead rfl, hlen, hs, hend⟩

/-! ## The heads that are there -/

theorem headLoop_of_isLine (hl : IsLine l) (hlen : acc.length + l.length ≤ max) (hs : s.bytes = l ++ more) :
    ∃ rest, rest.bytes = more ∧ rest.ending = s.ending ∧
      headLoop max acc s =
        if isEmptyLine l then
          if acc.isEmpty then headLoop max [] rest else .message (l.reverse ++ acc).reverse rest
        else headLoop max (l.reverse ++ acc) rest := by
  have hlimit : l.length ≤ max + 1 - acc.length := by omega
  obtain ⟨hbytes, hrest, -⟩ := Source.readLine_of_isLine hl hlimit hs
  refine ⟨(s.readLine (max + 1 - acc.length)).rest, hrest, Source.ending_readLine _ s, ?_⟩
  have hfits : ¬max < (l.reverse ++ acc).length := by
    rw [List.length_append, List.length_reverse]
    omega
  rw [headLoop, hbytes, if_neg hfits, dif_neg hl.ne_nil]

theorem headLoop_of_isBlock (hblock : IsBlock IsLine more) (hacc : acc ≠ []) (hlen : acc.length + more.length ≤ max)
    (hs : s.bytes = more ++ tail) :
    ∃ rest, rest.bytes = tail ∧ rest.ending = s.ending ∧ headLoop max acc s = .message (acc.reverse ++ more) rest := by
  induction hblock generalizing acc s with
  | last hl hempty =>
    obtain ⟨rest, hrest, hend, heq⟩ := headLoop_of_isLine hl hlen hs
    refine ⟨rest, hrest, hend, ?_⟩
    rw [heq, if_pos hempty, if_neg (fun h => hacc (List.isEmpty_iff.1 h)), List.reverse_append, List.reverse_reverse]
  | @cons l bs hl hempty _ ih =>
    rw [List.length_append] at hlen
    rw [List.append_assoc] at hs
    have hline : acc.length + l.length ≤ max := by omega
    obtain ⟨rest, hrest, hend, heq⟩ := headLoop_of_isLine hl hline hs
    have hcollected : l.reverse ++ acc ≠ [] := fun h => hacc (List.append_eq_nil_iff.1 h).2
    have hfits : (l.reverse ++ acc).length + bs.length ≤ max := by
      rw [List.length_append, List.length_reverse]
      omega
    obtain ⟨rest', hrest', hend', heq'⟩ := ih hcollected hfits hrest
    refine ⟨rest', hrest', hend'.trans hend, ?_⟩
    rw [heq, if_neg (Bool.eq_false_iff.1 hempty), heq', List.reverse_append, List.reverse_reverse, List.append_assoc]

/-- **A head that is there is read**, if it fits the limit, whatever stands behind it. -/
theorem readHead_of_isHead (hblank : IsBlank blank) (hhead : IsHead raw) (hlen : raw.length ≤ max)
    (hs : s.bytes = blank ++ (raw ++ tail)) :
    ∃ rest, rest.bytes = tail ∧ rest.ending = s.ending ∧ readHead max s = .message raw rest := by
  induction hblank generalizing s with
  | nil =>
    obtain ⟨l, bs, rfl, hl, hempty, hbs⟩ := hhead.exists_cons
    rw [List.length_append] at hlen
    rw [List.nil_append, List.append_assoc] at hs
    have hline : ([] : List UInt8).length + l.length ≤ max := by
      rw [List.length_nil]
      omega
    obtain ⟨rest, hrest, hend, heq⟩ := headLoop_of_isLine hl hline hs
    have hcollected : l.reverse ++ [] ≠ [] := by simpa using hl.ne_nil
    obtain ⟨rest', hrest', hend', heq'⟩ := headLoop_of_isBlock hbs hcollected (by simpa using hlen) hrest
    refine ⟨rest', hrest', hend'.trans hend, ?_⟩
    unfold readHead
    rw [heq, if_neg (Bool.eq_false_iff.1 hempty), heq', List.append_nil, List.reverse_reverse]
  | @cons l bs hempty _ ih =>
    have hfits : ([] : List UInt8).length + l.length ≤ max := by
      have := hhead.two_le_length
      have := (length_of_isEmptyLine hempty).2
      rw [List.length_nil]
      omega
    rw [List.append_assoc] at hs
    obtain ⟨rest, hrest, hend, heq⟩ := headLoop_of_isLine (isLine_of_isEmptyLine hempty) hfits hs
    obtain ⟨rest', hrest', hend', heq'⟩ := ih hrest
    refine ⟨rest', hrest', hend'.trans hend, ?_⟩
    unfold readHead at heq' ⊢
    rw [heq, if_pos hempty, if_pos List.isEmpty_nil, heq']

/-! ## Where a stream is cut -/

/-- What reading comes to, with all of the stream arrived. -/
def Reading.flat {α : Type} : Reading α → Reading α
  | .message a rest => .message a rest.flat
  | r => r

theorem Reading.flat_andThen {α β : Type} (r : Reading α) (f : α → Except Fault β) :
    (r.andThen f).flat = r.flat.andThen f := by
  cases r with
  | message a rest =>
    unfold andThen
    dsimp only [flat]
    cases f a <;> rfl
  | closed => rfl
  | quiet => rfl
  | refused fault => rfl

theorem headLoop_congr (h : s.flat = t.flat) : (headLoop max acc s).flat = (headLoop max acc t).flat := by
  fun_induction headLoop max acc s generalizing t with
  | case1 acc s line collected =>
    rename_i hlong
    obtain ⟨hbytes, -, hrest⟩ := Source.readLine_congr h (max + 1 - acc.length)
    rw [headLoop, ← hbytes, if_pos hlong]
  | case2 acc s line collected hlong hnil =>
    rename_i hquiet
    obtain ⟨hbytes, -, hrest⟩ := Source.readLine_congr h (max + 1 - acc.length)
    have hending := (Source.flat_eq_flat_iff.1 h).2
    rw [headLoop, ← hbytes, if_neg hlong, dif_pos hnil, ← hending, hquiet]
  | case3 acc s line collected hlong hnil hclosed =>
    rename_i hacc
    obtain ⟨hbytes, -, hrest⟩ := Source.readLine_congr h (max + 1 - acc.length)
    have hending := (Source.flat_eq_flat_iff.1 h).2
    rw [headLoop, ← hbytes, if_neg hlong, dif_pos hnil, ← hending, hclosed]
    dsimp only
    rw [if_pos hacc]
  | case4 acc s line collected hlong hnil hclosed =>
    rename_i hacc
    obtain ⟨hbytes, -, hrest⟩ := Source.readLine_congr h (max + 1 - acc.length)
    have hending := (Source.flat_eq_flat_iff.1 h).2
    rw [headLoop, ← hbytes, if_neg hlong, dif_pos hnil, ← hending, hclosed]
    dsimp only
    rw [if_neg hacc]
  | case5 acc s line collected hlong hnil hempty hacc =>
    rename_i ih
    obtain ⟨hbytes, -, hrest⟩ := Source.readLine_congr h (max + 1 - acc.length)
    rw [headLoop.eq_1 max acc t, ← hbytes, if_neg hlong, dif_neg hnil, if_pos hempty, if_pos hacc]
    exact ih hrest
  | case6 acc s line collected hlong hnil hempty =>
    rename_i hacc
    obtain ⟨hbytes, -, hrest⟩ := Source.readLine_congr h (max + 1 - acc.length)
    rw [headLoop.eq_1 max acc t, ← hbytes, if_neg hlong, dif_neg hnil, if_pos hempty, if_neg hacc]
    exact congrArg (Reading.message collected.reverse) hrest
  | case7 acc s line collected hlong hnil hempty =>
    rename_i ih
    obtain ⟨hbytes, -, hrest⟩ := Source.readLine_congr h (max + 1 - acc.length)
    rw [headLoop.eq_1 max acc t, ← hbytes, if_neg hlong, dif_neg hnil, if_neg hempty]
    exact ih hrest

/-- **Where a stream is cut has no effect on the head that is read.** -/
theorem readHead_congr (h : s.flat = t.flat) : (readHead max s).flat = (readHead max t).flat :=
  headLoop_congr h

/-! ## What is read out of a head -/

namespace Reading

variable {α β : Type} {r : Reading α} {f : α → Except Fault β} {a : α} {b : β}

theorem andThen_of_message (hr : r = .message a rest) (hf : f a = .ok b) : r.andThen f = .message b rest := by
  rw [hr]
  unfold andThen
  dsimp only
  rw [hf]

theorem exists_of_andThen (h : r.andThen f = .message b rest) : ∃ a, r = .message a rest ∧ f a = .ok b := by
  cases r with
  | message a rest' =>
    unfold andThen at h
    dsimp only at h
    cases hf : f a with
    | error fault => rw [hf] at h; cases h
    | ok b' => rw [hf] at h; cases h; exact ⟨a, rfl, hf⟩
  | closed => cases h
  | quiet => cases h
  | refused fault => cases h

end Reading

theorem Framing.ofRequest_ne_untilClose {headers : List Header} {framing : Framing}
    (h : ofRequest headers = .ok framing) : framing ≠ .untilClose := by
  rintro rfl
  unfold ofRequest at h
  split at h
  · cases h
  · cases hlen : contentLength headers with
    | error fault =>
      rw [hlen] at h
      cases h
    | ok known =>
      rw [hlen] at h
      have heq := Except.ok.inj h
      dsimp only at heq
      split at heq <;> cases heq

/-! ## Heads of requests -/

namespace RequestHead

variable {head : RequestHead}

/-- A head that a reader gives: it fits the limit, and all of it is read out of its bytes. -/
structure Fits (max : Nat) (head : RequestHead) : Prop where
  isHead : IsHead head.raw
  length : head.raw.length ≤ max
  parsed : ofBytes head.raw = .ok head

theorem raw_of_ofBytes (h : ofBytes raw = .ok head) : head.raw = raw := by
  unfold ofBytes at h
  split at h
  · rename_i parts _ _
    cases hf : Framing.ofRequest parts.headers with
    | error fault => rw [hf] at h; cases h
    | ok framing => rw [hf] at h; cases h; rfl
  · cases h
  · cases h

theorem Fits.framing_ne_untilClose (h : head.Fits max) : head.framing ≠ .untilClose := by
  have hparsed := h.parsed
  unfold ofBytes at hparsed
  split at hparsed
  · rename_i parts _ _
    cases hf : Framing.ofRequest parts.headers with
    | error fault => rw [hf] at hparsed; cases hparsed
    | ok framing =>
      rw [hf] at hparsed
      rw [← Except.ok.inj hparsed]
      exact Framing.ofRequest_ne_untilClose hf
  · cases hparsed
  · cases hparsed

theorem read_message (h : read max s = .message head rest) :
    head.Fits max ∧ ∃ blank, IsBlank blank ∧ s.bytes = blank ++ (head.raw ++ rest.bytes) ∧ rest.ending = s.ending := by
  obtain ⟨raw, hraw, hparsed⟩ := Reading.exists_of_andThen h
  obtain ⟨blank, hblank, hhead, hlen, hs, hend⟩ := readHead_message hraw
  obtain rfl := raw_of_ofBytes hparsed
  exact ⟨⟨hhead, hlen, hparsed⟩, blank, hblank, hs, hend⟩

theorem read_of_fits (hfits : head.Fits max) (hblank : IsBlank blank) (hs : s.bytes = blank ++ (head.raw ++ tail)) :
    ∃ rest, rest.bytes = tail ∧ rest.ending = s.ending ∧ read max s = .message head rest := by
  obtain ⟨rest, hrest, hend, hraw⟩ := readHead_of_isHead hblank hfits.isHead hfits.length hs
  exact ⟨rest, hrest, hend, Reading.andThen_of_message hraw hfits.parsed⟩

theorem read_congr (h : s.flat = t.flat) : (read max s).flat = (read max t).flat := by
  unfold read
  rw [Reading.flat_andThen, Reading.flat_andThen, readHead_congr h]

end RequestHead

/-! ## Heads of responses -/

namespace ResponseHead

variable {head : ResponseHead} {method : String}

/-- A head that a reader gives: it fits the limit, and all of it is read out of its bytes. -/
structure Fits (max : Nat) (method : String) (head : ResponseHead) : Prop where
  isHead : IsHead head.raw
  length : head.raw.length ≤ max
  parsed : ofBytes method head.raw = .ok head

theorem raw_of_ofBytes (h : ofBytes method raw = .ok head) : head.raw = raw := by
  unfold ofBytes at h
  split at h
  · rename_i parts _ _
    cases hf : Framing.ofResponse method parts.status parts.headers with
    | error fault => rw [hf] at h; cases h
    | ok framing => rw [hf] at h; cases h; rfl
  · cases h
  · cases h

theorem read_message (h : read max method s = .message head rest) :
    head.Fits max method ∧
      ∃ blank, IsBlank blank ∧ s.bytes = blank ++ (head.raw ++ rest.bytes) ∧ rest.ending = s.ending := by
  unfold read at h
  split at h
  · cases h
  · obtain ⟨raw, hraw, hparsed⟩ := Reading.exists_of_andThen h
    obtain ⟨blank, hblank, hhead, hlen, hs, hend⟩ := readHead_message hraw
    obtain rfl := raw_of_ofBytes hparsed
    exact ⟨⟨hhead, hlen, hparsed⟩, blank, hblank, hs, hend⟩

theorem read_of_fits (hfits : head.Fits max method) (hblank : IsBlank blank)
    (hs : s.bytes = blank ++ (head.raw ++ tail)) :
    ∃ rest, rest.bytes = tail ∧ rest.ending = s.ending ∧ read max method s = .message head rest := by
  obtain ⟨rest, hrest, hend, hraw⟩ := readHead_of_isHead hblank hfits.isHead hfits.length hs
  refine ⟨rest, hrest, hend, ?_⟩
  unfold read
  rw [Reading.andThen_of_message hraw hfits.parsed]

theorem read_ne_closed : read max method s ≠ .closed := by
  unfold read
  split
  · nofun
  · rename_i h
    exact h

theorem flat_read (max : Nat) (method : String) (s : Source) :
    (read max method s).flat =
      match ((readHead max s).andThen (ofBytes method)).flat with
      | .closed => .refused (.backendUnavailable "upstream closed without responding")
      | r => r := by
  unfold read
  cases (readHead max s).andThen (ofBytes method) <;> rfl

theorem read_congr (h : s.flat = t.flat) : (read max method s).flat = (read max method t).flat := by
  have hunder : ((readHead max s).andThen (ofBytes method)).flat = ((readHead max t).andThen (ofBytes method)).flat := by
    rw [Reading.flat_andThen, Reading.flat_andThen, readHead_congr h]
  rw [flat_read, flat_read, hunder]

end ResponseHead
end Http
end SearchTelemetry
