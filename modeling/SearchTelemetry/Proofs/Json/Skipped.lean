import SearchTelemetry.Proofs.Json.Records
/-!
# Json.Skipped — what can be read can be skipped

Skipping checks less of a value than reading does, and with a stack of open brackets in place of a depth.  Where the grammar
reads a value, skipping ends where it ends (`Reads.skip`).  So a record that is read in full is read leniently as well, as
what it is without the fields whose names are not known (`lenient?_eq_of_strict?`).
-/
namespace SearchTelemetry
namespace Json
namespace Reader

variable {bs rest : List UInt8} {depth : Nat}

/-! ## Values without parts -/

theorem skipString_of_stringLoop {acc content : List UInt8} (h : stringLoop acc bs = some (content, rest)) :
    skipString bs = some rest := by
  fun_induction stringLoop acc bs with
  | case2 acc tail =>
    obtain ⟨-, rfl⟩ : acc.reverse = content ∧ tail = rest := by simpa using h
    rw [skipString.eq_def]
    simp
  | case7 acc h1 h2 h3 h4 n hn hl hh s u l1 l2 l3 l4 tail hsu m hm hlm _ ih =>
    -- the halves of a pair are two escapes here
    obtain ⟨rfl, rfl⟩ := hsu
    rw [skipString.eq_def]
    simp only [hn]
    rw [skipString.eq_def]
    simpa [hm] using ih h
  | case11 acc h1 h2 h3 h4 tail n hn hl hh _ ih =>
    rw [skipString.eq_def]
    simpa [hn] using ih h
  | case14 acc e tail he b hb _ ih =>
    rw [skipString.eq_def]
    simpa [he, hb] using ih h
  | case16 acc b tail hb hs hc ih =>
    rw [skipString.eq_def]
    simpa [hb, hs, hc] using ih h
  | _ => cases h

theorem skipString_of_string {s : String} (h : string bs = some (s, rest)) : skipString bs = some rest := by
  unfold string at h
  split at h
  · cases h
  · rename_i content rest' hloop
    obtain ⟨s', -, heq⟩ := Option.map_eq_some_iff.1 h
    obtain ⟨-, rfl⟩ : s' = s ∧ rest' = rest := by simpa using heq
    exact skipString_of_stringLoop hloop

theorem skipScalar_of_scalar {v : Value} (h : scalar bs = some (v, rest)) : skipScalar bs = some rest := by
  have hword : ∀ {word tail : List UInt8} {w : Value}, (after? word tail).map (w, ·) = some (v, rest) →
      after? word tail = some rest := fun {word tail w} h => by
    obtain ⟨rest', hafter, heq⟩ := Option.map_eq_some_iff.1 h
    rw [hafter, (Prod.mk.inj heq).2]
  obtain ⟨b, tail, rfl, rfl | hb | rfl | rfl | rfl⟩ := scalar_cases h
  · rw [scalar_string] at h
    obtain ⟨⟨s, rest'⟩, hs, heq⟩ := Option.map_eq_some_iff.1 h
    rw [← (Prod.mk.inj heq).2]
    exact skipString_of_string hs
  · rw [scalar_number tail hb] at h
    obtain ⟨⟨n, rest'⟩, hn, heq⟩ := Option.map_eq_some_iff.1 h
    have hquote : b ≠ 0x22 := by rintro rfl; revert hb; decide
    unfold number at hn
    split at hn
    · cases hn
    · rename_i x rest'' hx
      obtain ⟨n', -, heq'⟩ := Option.map_eq_some_iff.1 hn
      simp only [skipScalar, if_neg hquote, if_pos hb, hx, Option.map_some]
      rw [(Prod.mk.inj heq').2, (Prod.mk.inj heq).2]
  · exact hword (scalar_null tail ▸ h)
  · exact hword (scalar_true tail ▸ h)
  · exact hword (scalar_false tail ▸ h)

/-! ## Values -/

/-- What skipping expects where a part begins. -/
def Part.expected : Part → Expect
  | .value _ => .value
  | .items _ => .value
  | .fields _ => .name

/-- The brackets that are open inside a part. -/
def Part.opened (stack : List Bracket) : Part → List Bracket
  | .value _ => stack
  | .items _ => .array :: stack
  | .fields _ => .object :: stack

theorem skipLoop_scalar {v : Value} (fuel : Nat) (stack : List Bracket) (h : scalar (skipSpace bs) = some (v, rest)) :
    skipLoop (fuel + 1) .value stack bs = skipLoop fuel .next stack rest := by
  have hskip := skipScalar_of_scalar h
  obtain ⟨b, tail, hbs, hb⟩ := scalar_cases h
  rw [hbs] at hskip
  conv => lhs; unfold skipLoop
  rw [hbs]
  split
  · rename_i heq
    obtain rfl : b = 0x5B := (List.cons.inj heq).1
    exact absurd hb (by decide)
  · rename_i heq
    obtain rfl : b = 0x7B := (List.cons.inj heq).1
    exact absurd hb (by decide)
  · simp only [hskip]

theorem skipLoop_fieldName {name : String} (fuel : Nat) (stack : List Bracket) (h : fieldName bs = some (name, rest)) :
    skipLoop (fuel + 1) .name stack bs = skipLoop fuel .value stack rest := by
  obtain ⟨r, r', hr, hs, hrest⟩ := fieldName_eq_some_iff.1 h
  simp [skipLoop, hr, skipString_of_string hs, hrest]

/-- Every byte that is skipped is worth a step, and each step takes a byte. -/
theorem Reads.skipLoop {p : Part} (h : Reads depth bs p rest) : ∃ steps, steps + rest.length ≤ bs.length ∧
    ∀ fuel stack, skipLoop (fuel + steps) p.expected (p.opened stack) bs = skipLoop fuel .next stack rest := by
  induction h with
  | @scalar depth bs rest v h =>
    have := (@Reads.scalar depth _ _ _ h).length_lt
    exact ⟨1, by omega, fun fuel stack => skipLoop_scalar fuel stack h⟩
  | @noItems depth bs r rest h hr =>
    have := (@Reads.noItems depth _ _ _ h hr).length_lt
    exact ⟨1, by omega, fun fuel stack => by simp [Part.expected, Part.opened, Reader.skipLoop, h, hr]⟩
  | @noFields depth bs r rest h hr =>
    have := (@Reads.noFields depth _ _ _ h hr).length_lt
    exact ⟨1, by omega, fun fuel stack => by simp [Part.expected, Part.opened, Reader.skipLoop, h, hr]⟩
  | @array depth bs r rest vs h hr ih =>
    have := length_of_skipSpace h
    have := length_skipSpace_le r
    have hne := hr.items_ne
    obtain ⟨steps, hle, hskip⟩ := ih
    refine ⟨steps + 1, by omega, fun fuel stack => ?_⟩
    rw [← hskip fuel stack]
    simp [Part.expected, Part.opened, Reader.skipLoop, h, ← Nat.add_assoc]
  | @object depth bs r rest fs h hr ih =>
    have := length_of_skipSpace h
    have := length_skipSpace_le r
    have hne := hr.fields_ne
    obtain ⟨steps, hle, hskip⟩ := ih
    refine ⟨steps + 1, by omega, fun fuel stack => ?_⟩
    rw [← hskip fuel stack]
    simp [Part.expected, Part.opened, Reader.skipLoop, h, ← Nat.add_assoc]
  | @lastItem depth bs r rest v hv hr ih =>
    have := length_of_skipSpace hr
    obtain ⟨steps, hle, hskip⟩ := ih
    refine ⟨1 + steps, by omega, fun fuel stack => ?_⟩
    rw [← Nat.add_assoc]
    refine (hskip (fuel + 1) (.array :: stack)).trans ?_
    simp [Reader.skipLoop, hr]
  | @nextItem depth bs r r' rest v vs hv hr hvs ih ih' =>
    have := length_of_skipSpace hr
    obtain ⟨steps, hle, hskip⟩ := ih
    obtain ⟨steps', hle', hskip'⟩ := ih'
    refine ⟨steps' + 1 + steps, by omega, fun fuel stack => ?_⟩
    rw [← Nat.add_assoc, ← Nat.add_assoc, ← hskip' fuel stack]
    refine (hskip (fuel + steps' + 1) (.array :: stack)).trans ?_
    simp [Reader.skipLoop, hr, Part.expected, Part.opened]
  | @lastField depth bs r r' rest name v hn hv hr ih =>
    have := length_of_skipSpace hr
    have := looksNoFurther_fieldName.length_lt hn
    obtain ⟨steps, hle, hskip⟩ := ih
    refine ⟨1 + steps + 1, by omega, fun fuel stack => ?_⟩
    rw [← Nat.add_assoc, ← Nat.add_assoc]
    refine (skipLoop_fieldName _ _ hn).trans ((hskip (fuel + 1) (.object :: stack)).trans ?_)
    simp [Reader.skipLoop, hr]
  | @nextField depth bs r r' r'' rest name v fs hn hv hr hfs ih ih' =>
    have := length_of_skipSpace hr
    have := looksNoFurther_fieldName.length_lt hn
    obtain ⟨steps, hle, hskip⟩ := ih
    obtain ⟨steps', hle', hskip'⟩ := ih'
    refine ⟨steps' + 1 + steps + 1, by omega, fun fuel stack => ?_⟩
    rw [← Nat.add_assoc, ← Nat.add_assoc, ← Nat.add_assoc, ← hskip' fuel stack]
    refine (skipLoop_fieldName _ _ hn).trans ((hskip (fuel + steps' + 1) (.object :: stack)).trans ?_)
    simp [Reader.skipLoop, hr, Part.expected, Part.opened]

/-- **A value that is read is skipped to its end.** -/
theorem Reads.skip {v : Value} (h : Reads depth bs (.value v) rest) : skip bs = some rest := by
  obtain ⟨steps, hle, hskip⟩ := h.skipLoop
  obtain ⟨fuel, hfuel⟩ : ∃ n, bs.length + 2 = n + 1 + steps := ⟨bs.length + 1 - steps, by omega⟩
  rw [Reader.skip, hfuel]
  exact (hskip (fuel + 1) []).trans (by simp [Reader.skipLoop])

end Reader

/-! ## Records -/

namespace Written

open Reader

/-- The fields of a record whose names are known; values without names are left as they are. -/
def onlyKnown (known : List String) : Written → Written
  | named fs => named (fs.filter fun f => known.contains f.1)
  | listed vs => listed vs

theorem lenientFields_eq_of_reads (known : List String) {rest : List UInt8} : ∀ {fs : Fields} {bs : List UInt8},
    Reads (maxDepth - 1) bs (.fields fs) rest → ∀ (fuel : Nat) (acc : Fields), bs.length ≤ fuel →
      lenientFields known fuel acc bs = some (acc.reverse ++ fs.filter (fun f => known.contains f.1), rest)
  | [], _, h, _, _, _ => by cases h
  | (name, v) :: fs, bs, h, fuel, acc, hf => by
    have hvalue : ∀ {r r' : List UInt8}, Reads (maxDepth - 1) r (.value v) r' →
        valueLoop r.length.succ (maxDepth - 1) r = some (v, r') := fun hv => hv.loopReads _ (by omega)
    have hlength := h.length_lt
    obtain ⟨fuel, rfl⟩ : ∃ n, fuel = n + 1 := ⟨fuel - 1, by omega⟩
    cases h with
    | lastField hn hv hr =>
      by_cases hname : name ∈ known
      · simp [lenientFields, hn, hname, hvalue hv, hr]
      · simp [lenientFields, hn, hname, hv.skip, hr]
    | nextField hn hv hr hfs =>
      have := looksNoFurther_fieldName.length_lt hn
      have := hv.length_lt
      have := length_of_skipSpace hr
      have ih := fun acc => lenientFields_eq_of_reads known hfs fuel acc (by omega)
      by_cases hname : name ∈ known
      · simp [lenientFields, hn, hname, hvalue hv, hr, ih]
      · simp [lenientFields, hn, hname, hv.skip, hr, ih]

/-- **A record that is read in full is read leniently**, without the fields that are not known. -/
theorem lenient?_eq_of_strict? {bs : List UInt8} {w : Written} (h : strict? bs = some w) (known : List String) :
    lenient? known bs = some (w.onlyKnown known) := by
  obtain ⟨rest, hbegins, hrest⟩ := strict?_eq_some_iff.1 h
  have hwhole : ∀ w : Written, whole (some (w, rest)) = some w := fun w => whole_eq_some_iff.2 ⟨rest, rfl, hrest⟩
  unfold lenient? read
  cases hbegins with
  | noFields hb hr => simp [hb, hr, hwhole, onlyKnown]
  | noItems hb hr => simp [hb, hr, hwhole, onlyKnown]
  | @fields r _ fs hb hr =>
    have hne := hr.fields_ne
    have hloop := lenientFields_eq_of_reads known hr (skipSpace r).length.succ [] (by omega)
    simp [hb, hloop, hwhole, onlyKnown]
  | @items r _ vs hb hr =>
    have hne := hr.items_ne
    have hloop := hr.loopReads (skipSpace r).length.succ (by omega) []
    simp [hb, hloop, hwhole, onlyKnown]

/-- The names of a record's fields, if they have names. -/
def names : Written → List String
  | named fs => fs.map (·.1)
  | listed _ => []

theorem lenient?_of_strict? {known : List String} {bs : List UInt8} {w : Written} (h : strict? bs = some w)
    (hk : ∀ name ∈ w.names, name ∈ known) : lenient? known bs = some w := by
  have honly : w.onlyKnown known = w := by
    cases w with
    | named fs =>
      refine congrArg named (List.filter_eq_self.2 fun f hf => ?_)
      simpa using hk f.1 (List.mem_map_of_mem hf)
    | listed vs => rfl
  rw [lenient?_eq_of_strict? h, honly]

end Written
end Json
end SearchTelemetry
