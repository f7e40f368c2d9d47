import Mathlib.Data.List.TakeDrop
import SearchTelemetry.Proofs.Http.Heads
import SearchTelemetry.Proofs.Outcomes
/-!
# Http.WholeHeads — a head is read to its last byte

Heads are found by their lines and read by their grammar.  The grammar never goes past the end of a line but at the end of
a part that ends with its line (`Leaves`, `Within`), so it comes to the empty line that ended the scan and stops there: the
bytes of a head that has been found are all read, or there is something wrong with them, but they are never too few
(`heads_read_whole`).
-/
namespace SearchTelemetry
namespace Http

variable {α β : Type} {l bs more : List UInt8} {fault : HeadFault}

/-! ## Lines from within -/

theorem IsLine.cases_cons (h : IsLine l) : l = [0x0A] ∨ ∃ b l', b ≠ 0x0A ∧ IsLine l' ∧ l = b :: l' := by
  obtain ⟨t, ht, rfl⟩ := h
  cases t with
  | nil => exact .inl rfl
  | cons b t =>
    rw [List.mem_cons, not_or] at ht
    exact .inr ⟨b, t ++ [0x0A], fun hb => ht.1 hb.symm, ⟨t, ht.2, rfl⟩, rfl⟩

/-- The rest of a line, and what follows the line. -/
def Within (more rest : List UInt8) : Prop :=
  ∃ l, IsLine l ∧ rest = l ++ more

theorem Within.cases_cons (h : Within more bs) : bs = 0x0A :: more ∨ ∃ b rest, b ≠ 0x0A ∧ Within more rest ∧ bs = b :: rest := by
  obtain ⟨l, hl, rfl⟩ := h
  rcases hl.cases_cons with rfl | ⟨b, l', hb, hl', rfl⟩
  · exact .inl rfl
  · exact .inr ⟨b, l' ++ more, hb, ⟨l', hl', rfl⟩, rfl⟩

theorem Within.exists_cons (h : Within more bs) : ∃ b rest, bs = b :: rest ∧ (b ≠ 0x0A → Within more rest) := by
  rcases h.cases_cons with rfl | ⟨b, rest, -, hrest, rfl⟩
  · exact ⟨0x0A, more, rfl, fun hb => absurd rfl hb⟩
  · exact ⟨b, rest, rfl, fun _ => hrest⟩

/-- What is taken off the front of a line without its line feed leaves the line begun. -/
theorem Within.dropWhile {p : UInt8 → Bool} (hp : p 0x0A = false) (h : Within more bs) : Within more (bs.dropWhile p) := by
  obtain ⟨l, ⟨t, ht, rfl⟩, rfl⟩ := h
  induction t with
  | nil => exact ⟨[0x0A], ⟨[], ht, rfl⟩, List.dropWhile_cons_of_neg (by simp [hp])⟩
  | cons b t ih =>
    by_cases hb : p b
    · have hdrop : ((b :: t) ++ [0x0A] ++ more).dropWhile p = (t ++ [0x0A] ++ more).dropWhile p :=
        List.dropWhile_cons_of_pos hb
      rw [hdrop]
      exact ih (fun hmem => ht (List.mem_cons_of_mem _ hmem))
    · exact ⟨b :: t ++ [0x0A], ⟨b :: t, ht, rfl⟩, List.dropWhile_cons_of_neg hb⟩

/-! ## Readers of parts -/

namespace Syntax

/-- Not too few bytes for the part, and this behind it. -/
def Leaves (P : List UInt8 → Prop) : Except HeadFault (Parsed α) → Prop
  | .ok (_, rest) => P rest
  | .error fault => fault ≠ .incomplete

theorem Leaves.bind {P Q : List UInt8 → Prop} {r : Except HeadFault (Parsed α)} {f : Parsed α → Except HeadFault (Parsed β)}
    (h : Leaves P r) (hf : ∀ a rest, P rest → Leaves Q (f (a, rest))) : Leaves Q (r >>= f) := by
  cases r with
  | error fault => exact h
  | ok part => exact hf part.1 part.2 h

theorem leaves_error {P : List UInt8 → Prop} (hfault : fault ≠ .incomplete) :
    Leaves P (.error fault : Except HeadFault (Parsed α)) :=
  hfault

theorem leaves_lineEnd (hfault : fault ≠ .incomplete) (h : Within more bs) : Leaves (· = more) (lineEnd fault bs) := by
  rcases h.cases_cons with rfl | ⟨b, rest, hb, hrest, rfl⟩
  · rfl
  · unfold lineEnd
    split
    · rename_i heq; cases heq
    · rename_i heq; exact absurd (List.cons.inj heq).1 hb
    · rename_i heq
      obtain ⟨-, rfl⟩ := List.cons.inj heq
      rcases hrest.cases_cons with rfl | ⟨c, rest', hc, -, rfl⟩
      · rfl
      · dsimp only
        rw [if_neg hc]
        exact hfault
    · exact hfault

theorem leaves_method (h : Within more bs) : Leaves (Within more) (method bs) := by
  obtain ⟨b, rest, heq, hrest⟩ := (h.dropWhile (p := isToken) rfl).exists_cons
  unfold method
  rw [List.span_eq_takeWhile_dropWhile, heq]
  cases bs.takeWhile isToken with
  | nil => exact leaves_error (by decide)
  | cons a name =>
    dsimp only
    split
    · rename_i hb
      exact hrest (hb ▸ by decide)
    · exact leaves_error (by decide)

theorem leaves_target (h : Within more bs) : Leaves (Within more) (target bs) := by
  obtain ⟨b, rest, heq, hrest⟩ := (h.dropWhile (p := isTarget) rfl).exists_cons
  unfold target
  rw [List.span_eq_takeWhile_dropWhile, heq]
  dsimp only
  split
  · rename_i hb
    split
    · exact hrest (hb.1 ▸ by decide)
    · exact leaves_error (by decide)
  · exact leaves_error (by decide)

theorem leaves_versionLoop {expected : List UInt8} (hexpected : 0x0A ∉ expected) (h : Within more bs) :
    Leaves (Within more) (versionLoop expected bs) := by
  induction expected generalizing bs with
  | nil =>
    obtain ⟨b, rest, rfl, hrest⟩ := h.exists_cons
    unfold versionLoop
    split
    · rename_i hb
      exact hrest (hb ▸ by decide)
    · split
      · rename_i hb
        exact hrest (hb ▸ by decide)
      · exact leaves_error (by decide)
  | cons e expected ih =>
    rw [List.mem_cons, not_or] at hexpected
    obtain ⟨b, rest, rfl, hrest⟩ := h.exists_cons
    unfold versionLoop
    split
    · rename_i hb
      exact ih hexpected.2 (hrest fun heq => hexpected.1 (heq.symm.trans hb))
    · exact leaves_error (by decide)

theorem leaves_version (h : Within more bs) : Leaves (Within more) (version bs) :=
  leaves_versionLoop (by decide) h

theorem leaves_statusDigit (h : Within more bs) : Leaves (Within more) (statusDigit bs) := by
  obtain ⟨b, rest, rfl, hrest⟩ := h.exists_cons
  rw [statusDigit]
  split
  · rename_i hb
    exact hrest fun heq => absurd hb.1 (heq ▸ by decide)
  · exact leaves_error (by decide)

theorem leaves_status (h : Within more bs) : Leaves (Within more) (status bs) :=
  Leaves.bind (leaves_statusDigit h) fun _ _ h => Leaves.bind (leaves_statusDigit h) fun _ _ h =>
    Leaves.bind (leaves_statusDigit h) fun _ _ h => h

theorem leaves_space (hfault : fault ≠ .incomplete) (h : Within more bs) : Leaves (Within more) (space fault bs) := by
  obtain ⟨b, rest, rfl, hrest⟩ := h.exists_cons
  rw [space]
  split
  · rename_i hb
    exact hrest (hb ▸ by decide)
  · exact hfault

/-- A reason ends with its line. -/
theorem leaves_reason (h : Within more bs) : Leaves (· = more) (reason bs) := by
  obtain ⟨b, rest, rfl, hrest⟩ := h.exists_cons
  unfold reason
  split
  · rename_i heq
    obtain ⟨hb, rfl⟩ := List.cons.inj heq
    have hdrop := (hrest (hb ▸ by decide)).dropWhile (p := isText) rfl
    rw [List.span_eq_takeWhile_dropWhile]
    exact Leaves.bind (leaves_lineEnd (by decide) hdrop) fun _ _ h => h
  · exact Leaves.bind (leaves_lineEnd (by decide) h) fun _ _ h => h

theorem leaves_name (h : Within more bs) : Leaves (Within more) (name bs) := by
  obtain ⟨b, rest, heq, hrest⟩ := (h.dropWhile (p := isToken) rfl).exists_cons
  unfold name
  rw [List.span_eq_takeWhile_dropWhile, heq]
  dsimp only
  split
  · rename_i hb
    exact hrest (hb.1 ▸ by decide)
  · exact leaves_error (by decide)

/-- A value ends with its line. -/
theorem leaves_value (h : Within more bs) : Leaves (· = more) (value bs) := by
  have hdrop := (h.dropWhile (p := isGap) rfl).dropWhile (p := isText) rfl
  unfold value
  rw [List.span_eq_takeWhile_dropWhile]
  exact Leaves.bind (leaves_lineEnd (by decide) hdrop) fun _ _ h => h

theorem leaves_header (h : Within more bs) : Leaves (· = more) (header bs) :=
  Leaves.bind (leaves_name h) fun _ _ h => Leaves.bind (leaves_value h) fun _ _ h => h

/-! ## Header lines -/

/-- A line that begins like an empty one, and is none, is no line of a head. -/
theorem leaves_lineEnd_of_not_empty (hl : IsLine l) (hempty : isEmptyLine l = false) (hstart : atLineEnd (l ++ more)) :
    ∃ fault, lineEnd .newLine (l ++ more) = .error fault ∧ fault ≠ .incomplete := by
  rcases hl.cases_cons with rfl | ⟨b, l', hb, hl', rfl⟩
  · cases hempty
  · have hcr : b = 0x0D := by simpa [atLineEnd, hb] using hstart
    subst hcr
    rcases hl'.cases_cons with rfl | ⟨c, l'', hc, -, rfl⟩
    · cases hempty
    · refine ⟨.newLine, ?_, by decide⟩
      show (if c = 0x0A then _ else _) = _
      rw [if_neg hc]

theorem leaves_headersLoop (hblock : IsBlock IsLine bs) (left : Nat) (acc : List Header) :
    Leaves (· = more) (headersLoop left acc (bs ++ more)) := by
  -- the block and the header lines come to their ends together, line by line
  induction hblock generalizing left acc with
  | @last l hl hempty =>
    have hstart : atLineEnd (l ++ more) = true := by
      simp only [isEmptyLine, Bool.or_eq_true, beq_iff_eq] at hempty
      rcases hempty with rfl | rfl <;> rfl
    rw [headersLoop, if_pos hstart]
    have hend : Leaves (· = more) (lineEnd .newLine (l ++ more)) := leaves_lineEnd (by decide) ⟨l, hl, rfl⟩
    cases h : lineEnd .newLine (l ++ more) with
    | error fault => rw [h] at hend; exact hend
    | ok part => rw [h] at hend; exact hend
  | @cons l bs hl hempty _ ih =>
    rw [List.append_assoc, headersLoop]
    split
    · rename_i hstart
      obtain ⟨fault, heq, hfault⟩ := leaves_lineEnd_of_not_empty hl hempty hstart
      rw [heq]
      exact hfault
    · have hline : Leaves (· = bs ++ more) (header (l ++ (bs ++ more))) := leaves_header ⟨l, hl, rfl⟩
      cases h : header (l ++ (bs ++ more)) with
      | error fault => rw [h] at hline; exact hline
      | ok part =>
        obtain ⟨hd, rest⟩ := part
        rw [h] at hline
        obtain rfl : rest = bs ++ more := hline
        cases left with
        | zero => exact leaves_error (by decide)
        | succ left => exact ih left (hd :: acc)

theorem leaves_headers (hblock : IsBlock IsLine bs) : Leaves (· = more) (headers (bs ++ more)) :=
  leaves_headersLoop hblock maxHeaders []

/-! ## Whole heads -/

theorem skipEmpty_line (more : List UInt8) (hl : IsLine l) (hempty : isEmptyLine l = false) :
    skipEmpty (l ++ more) = .ok (l ++ more) ∨ skipEmpty (l ++ more) = .error .newLine := by
  rcases hl.cases_cons with rfl | ⟨b, l', hb, hl', rfl⟩
  · cases hempty
  · by_cases hcr : b = 0x0D
    · subst hcr
      rcases hl'.cases_cons with rfl | ⟨c, l'', hc, -, rfl⟩
      · cases hempty
      · refine .inr ?_
        show (if c = 0x0A then _ else _) = _
        rw [if_neg hc]
    · refine .inl ?_
      rw [List.cons_append]
      unfold skipEmpty
      split
      · rename_i heq; cases heq
      · rename_i heq; exact absurd (List.cons.inj heq).1 hb
      · rename_i heq; exact absurd (List.cons.inj heq).1 hcr
      · rename_i heq; exact absurd (List.cons.inj heq).1 hcr
      · rename_i heq; rw [heq]

variable {raw : List UInt8}

theorem leaves_request (h : IsHead raw) : Leaves (· = []) (request raw) := by
  obtain ⟨l, bs, rfl, hl, hempty, hbs⟩ := h.exists_cons
  have hheaders : Leaves (· = []) (headers (bs ++ [])) := leaves_headers hbs
  rw [List.append_nil] at hheaders
  unfold request
  rcases skipEmpty_line bs hl hempty with heq | heq
  · rw [heq]
    refine Leaves.bind (leaves_method ⟨l, hl, rfl⟩) fun _ _ hmethod => ?_
    refine Leaves.bind (leaves_target hmethod) fun _ _ htarget => ?_
    refine Leaves.bind (leaves_version htarget) fun _ _ hversion => ?_
    refine Leaves.bind (leaves_lineEnd (by decide) hversion) fun _ rest hrest => ?_
    subst hrest
    exact Leaves.bind hheaders fun _ _ hnil => hnil
  · rw [heq]
    exact leaves_error (by decide)

theorem leaves_response (h : IsHead raw) : Leaves (· = []) (response raw) := by
  obtain ⟨l, bs, rfl, hl, hempty, hbs⟩ := h.exists_cons
  have hheaders : Leaves (· = []) (headers (bs ++ [])) := leaves_headers hbs
  rw [List.append_nil] at hheaders
  unfold response
  rcases skipEmpty_line bs hl hempty with heq | heq
  · rw [heq]
    refine Leaves.bind (leaves_version ⟨l, hl, rfl⟩) fun _ _ hversion => ?_
    refine Leaves.bind (leaves_space (by decide) hversion) fun _ _ hspace => ?_
    refine Leaves.bind (leaves_status hspace) fun _ _ hstatus => ?_
    refine Leaves.bind (leaves_reason hstatus) fun _ rest hrest => ?_
    subst hrest
    exact Leaves.bind hheaders fun _ _ hnil => hnil
  · rw [heq]
    exact leaves_error (by decide)

/-- All the bytes are read, or something is wrong with those that are there. -/
def ReadsWhole (r : Except HeadFault (Parsed α)) : Prop :=
  (∃ a, r = .ok (a, [])) ∨ ∃ fault, r = .error fault ∧ fault ≠ .incomplete

theorem Leaves.readsWhole {r : Except HeadFault (Parsed α)} (h : Leaves (· = []) r) : ReadsWhole r := by
  cases r with
  | error fault => exact .inr ⟨fault, rfl, h⟩
  | ok part =>
    obtain ⟨a, rest⟩ := part
    obtain rfl : rest = [] := h
    exact .inl ⟨a, rfl⟩

theorem ReadsWhole.rest_eq {r : Except HeadFault (Parsed α)} {a : α} {rest : List UInt8} (h : ReadsWhole r)
    (hr : r = .ok (a, rest)) : r = .ok (a, []) := by
  rcases h with ⟨a', heq⟩ | ⟨fault, heq, -⟩
  · cases heq.symm.trans hr
    exact heq
  · cases heq.symm.trans hr

end Syntax

/-! ## What is never said of a head -/

theorem append_ne {a b c : String} (h : ¬a.toList <+: b.toList) : a ++ c ≠ b := fun heq =>
  h ⟨c.toList, by rw [← String.toList_append, heq]⟩

/-- A text that no fault of the scan or of the framing begins with. -/
structure IsForeign (why : String) : Prop where
  long : ¬"message head exceeds ".toList <+: why.toList
  cut : "connection closed mid-head" ≠ why
  invalid : ¬"invalid content-length ".toList <+: why.toList
  conflict : "conflicting content-length headers" ≠ why

variable {max : Nat} {s rest : Source} {raw : List UInt8} {why method : String}

theorem headLoop_ne_refused (hwhy : IsForeign why) (max : Nat) (acc : List UInt8) (s : Source) :
    headLoop max acc s ≠ .refused (.protocol why) := by
  intro h
  fun_induction headLoop max acc s with
  | case1 =>
    have htext := Fault.protocol.inj (Reading.refused.inj h)
    rw [String.append_assoc] at htext
    exact append_ne hwhy.long htext
  | case2 => cases h
  | case3 => cases h
  | case4 => exact hwhy.cut (Fault.protocol.inj (Reading.refused.inj h))
  | case5 _ _ _ _ _ _ _ _ ih => exact ih h
  | case6 => cases h
  | case7 _ _ _ _ _ _ _ ih => exact ih h

namespace Framing

theorem agreedLength_ne_error (hwhy : IsForeign why) (known : Option Nat) (vs : List String) :
    agreedLength known vs ≠ .error (.protocol why) := by
  intro h
  fun_induction agreedLength known vs with
  | case1 => cases h
  | case2 => exact append_ne hwhy.invalid (Fault.protocol.inj (Except.error.inj h))
  | case3 => exact hwhy.conflict (Fault.protocol.inj (Except.error.inj h))
  | case4 _ _ _ _ _ _ ih => exact ih h

theorem ofRequest_ne_error (hwhy : IsForeign why) (headers : List Header) :
    ofRequest headers ≠ .error (.protocol why) := by
  unfold ofRequest
  split
  · exact nofun
  · exact map_ne_error (agreedLength_ne_error hwhy _ _)

theorem ofResponse_ne_error (hwhy : IsForeign why) (method : String) (status : Nat) (headers : List Header) :
    ofResponse method status headers ≠ .error (.protocol why) := by
  unfold ofResponse
  split
  · exact nofun
  · split
    · exact nofun
    · exact map_ne_error (agreedLength_ne_error hwhy _ _)

end Framing

/-- **A head that is found is never too short to be read.** -/
theorem RequestHead.ofBytes_ne_incomplete (h : IsHead raw) :
    ofBytes raw ≠ .error (.protocol "incomplete request head") := by
  have hwhy : IsForeign "incomplete request head" := by constructor <;> decide
  have hleaves := Syntax.leaves_request h
  unfold ofBytes
  split
  · exact map_ne_error (Framing.ofRequest_ne_error hwhy _)
  · rename_i heq
    rw [heq] at hleaves
    exact absurd rfl hleaves
  · exact fun heq => append_ne (by decide) (Fault.protocol.inj (Except.error.inj heq))

theorem ResponseHead.ofBytes_ne_incomplete (h : IsHead raw) :
    ofBytes method raw ≠ .error (.protocol "incomplete response head") := by
  have hwhy : IsForeign "incomplete response head" := by constructor <;> decide
  have hleaves := Syntax.leaves_response h
  unfold ofBytes
  split
  · exact map_ne_error (Framing.ofResponse_ne_error hwhy _ _ _)
  · rename_i heq
    rw [heq] at hleaves
    exact absurd rfl hleaves
  · exact fun heq => append_ne (by decide) (Fault.protocol.inj (Except.error.inj heq))

theorem Reading.andThen_ne_refused {α β : Type} {r : Reading α} {f : α → Except Fault β} {fault : Fault}
    (hr : r ≠ .refused fault) (hf : ∀ a rest, r = .message a rest → f a ≠ .error fault) : r.andThen f ≠ .refused fault := by
  cases r with
  | message a rest =>
    unfold Reading.andThen
    dsimp only
    split
    · exact nofun
    · rename_i heq
      exact fun h => hf a rest rfl (heq.trans (congrArg Except.error (Reading.refused.inj h)))
  | closed => exact nofun
  | quiet => exact nofun
  | refused fault' =>
    intro h
    cases h
    exact hr rfl

namespace RequestHead

theorem parsed_of_ofBytes {head : RequestHead} (hhead : IsHead raw) (h : ofBytes raw = .ok head) :
    Syntax.request raw = .ok (head.parts, []) := by
  have hwhole := (Syntax.leaves_request hhead).readsWhole
  unfold ofBytes at h
  split at h
  · rename_i parts left heq
    obtain ⟨framing, -, rfl⟩ := exists_of_map_eq_ok h
    exact hwhole.rest_eq heq
  · cases h
  · cases h

end RequestHead

namespace ResponseHead

theorem parsed_of_ofBytes {head : ResponseHead} (hhead : IsHead raw) (h : ofBytes method raw = .ok head) :
    Syntax.response raw = .ok (head.parts, []) := by
  have hwhole := (Syntax.leaves_response hhead).readsWhole
  unfold ofBytes at h
  split at h
  · rename_i parts left heq
    obtain ⟨framing, -, rfl⟩ := exists_of_map_eq_ok h
    exact hwhole.rest_eq heq
  · cases h
  · cases h

end ResponseHead

/-- **The scan for a head and the grammar of heads agree on where a head ends.**  Whatever bytes the scan gives, the grammar
reads all of them or finds a fault in them, and never wants more; so a head that is passed on is the head that was read. -/
theorem heads_read_whole (max : Nat) (s : Source) :
    (∀ raw rest, readHead max s = .message raw rest →
      Syntax.ReadsWhole (Syntax.request raw) ∧ Syntax.ReadsWhole (Syntax.response raw)) ∧
    (∀ head rest, RequestHead.read max s = .message head rest →
      readHead max s = .message head.raw rest ∧ Syntax.request head.raw = .ok (head.parts, [])) ∧
    (∀ method head rest, ResponseHead.read max method s = .message head rest →
      readHead max s = .message head.raw rest ∧ Syntax.response head.raw = .ok (head.parts, [])) ∧
    RequestHead.read max s ≠ .refused (.protocol "incomplete request head") ∧
    ∀ method, ResponseHead.read max method s ≠ .refused (.protocol "incomplete response head") := by
  refine ⟨?_, ?_, ?_, ?_, ?_⟩
  · intro raw rest h
    obtain ⟨_, -, hhead, -⟩ := readHead_message h
    exact ⟨(Syntax.leaves_request hhead).readsWhole, (Syntax.leaves_response hhead).readsWhole⟩
  · intro head rest h
    obtain ⟨raw, hraw, hparsed⟩ := Reading.exists_of_andThen h
    obtain ⟨_, -, hhead, -⟩ := readHead_message hraw
    obtain rfl := RequestHead.raw_of_ofBytes hparsed
    exact ⟨hraw, RequestHead.parsed_of_ofBytes hhead hparsed⟩
  · intro method head rest h
    unfold ResponseHead.read at h
    split at h
    · cases h
    · obtain ⟨raw, hraw, hparsed⟩ := Reading.exists_of_andThen h
      obtain ⟨_, -, hhead, -⟩ := readHead_message hraw
      obtain rfl := ResponseHead.raw_of_ofBytes hparsed
      exact ⟨hraw, ResponseHead.parsed_of_ofBytes hhead hparsed⟩
  · refine Reading.andThen_ne_refused (headLoop_ne_refused (by constructor <;> decide) max [] s) fun raw rest h => ?_
    obtain ⟨_, -, hhead, -⟩ := readHead_message h
    exact RequestHead.ofBytes_ne_incomplete hhead
  · intro method h
    unfold ResponseHead.read at h
    split at h
    · cases h
    · refine Reading.andThen_ne_refused (headLoop_ne_refused (by constructor <;> decide) max [] s) (fun raw rest h => ?_) h
      obtain ⟨_, -, hhead, -⟩ := readHead_message h
      exact ResponseHead.ofBytes_ne_incomplete hhead

end Http
end SearchTelemetry
