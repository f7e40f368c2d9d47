import SearchTelemetry.Proofs.Json.Tokens
/-!
# Json.Grammar — what the reader of values accepts, as a grammar

`Reads depth bs p rest` says that bytes begin with a value, the items of an array or the fields of an object, brackets at
most `depth` deep, and what is left behind it.  The loops of the reader run on fuel; the grammar does not.  The two agree
(`reads_loops`, `Reads.loopReads`), so that everything else about the reader is an induction on the grammar: more depth
loses nothing, every part takes a byte, and no part looks behind its end (`Reads.looksNoFurther`).
-/
namespace SearchTelemetry
namespace Json
namespace Reader

/-- What a value is made of: the value itself, the items of an array to its end, the fields of an object to its end. -/
inductive Part where
  | value (v : Value)
  | items (vs : List Value)
  | fields (fs : Fields)

/-- Bytes that begin with a part, brackets at most so deep, and what is left behind it. -/
inductive Reads : Nat → List UInt8 → Part → List UInt8 → Prop where
  | scalar {depth : Nat} {bs rest : List UInt8} {v : Value} (h : scalar (skipSpace bs) = some (v, rest)) :
      Reads depth bs (.value v) rest
  | noItems {depth : Nat} {bs r rest : List UInt8} (h : skipSpace bs = 0x5B :: r) (hr : skipSpace r = 0x5D :: rest) :
      Reads (depth + 1) bs (.value (.array [])) rest
  | array {depth : Nat} {bs r rest : List UInt8} {vs : List Value} (h : skipSpace bs = 0x5B :: r)
      (hr : Reads depth (skipSpace r) (.items vs) rest) : Reads (depth + 1) bs (.value (.array vs)) rest
  | noFields {depth : Nat} {bs r rest : List UInt8} (h : skipSpace bs = 0x7B :: r) (hr : skipSpace r = 0x7D :: rest) :
      Reads (depth + 1) bs (.value (.object [])) rest
  | object {depth : Nat} {bs r rest : List UInt8} {fs : Fields} (h : skipSpace bs = 0x7B :: r)
      (hr : Reads depth (skipSpace r) (.fields fs) rest) :
      Reads (depth + 1) bs (.value (.object (Fields.ofList fs))) rest
  | lastItem {depth : Nat} {bs r rest : List UInt8} {v : Value} (hv : Reads depth bs (.value v) r)
      (hr : skipSpace r = 0x5D :: rest) : Reads depth bs (.items [v]) rest
  | nextItem {depth : Nat} {bs r r' rest : List UInt8} {v : Value} {vs : List Value} (hv : Reads depth bs (.value v) r)
      (hr : skipSpace r = 0x2C :: r') (hvs : Reads depth r' (.items vs) rest) : Reads depth bs (.items (v :: vs)) rest
  | lastField {depth : Nat} {bs r r' rest : List UInt8} {name : String} {v : Value}
      (hn : fieldName bs = some (name, r)) (hv : Reads depth r (.value v) r') (hr : skipSpace r' = 0x7D :: rest) :
      Reads depth bs (.fields [(name, v)]) rest
  | nextField {depth : Nat} {bs r r' r'' rest : List UInt8} {name : String} {v : Value} {fs : Fields}
      (hn : fieldName bs = some (name, r)) (hv : Reads depth r (.value v) r') (hr : skipSpace r' = 0x2C :: r'')
      (hfs : Reads depth r'' (.fields fs) rest) : Reads depth bs (.fields ((name, v) :: fs)) rest

/-! ## The loops and the grammar -/

/-- **What the loops read, the grammar reads.** -/
theorem reads_loops (fuel : Nat) :
    (∀ depth bs v rest, valueLoop fuel depth bs = some (v, rest) → Reads depth bs (.value v) rest) ∧
    (∀ depth acc bs vs rest, itemsLoop fuel depth acc bs = some (vs, rest) →
      ∃ vs', vs = acc.reverse ++ vs' ∧ Reads depth bs (.items vs') rest) ∧
    (∀ depth acc bs fs rest, fieldsLoop fuel depth acc bs = some (fs, rest) →
      ∃ fs', fs = acc.reverse ++ fs' ∧ Reads depth bs (.fields fs') rest) := by
  induction fuel with
  | zero => exact ⟨nofun, nofun, nofun⟩
  | succ fuel ih =>
    obtain ⟨ihv, ihi, ihf⟩ := ih
    refine ⟨fun depth bs v rest h => ?_, fun depth acc bs vs rest h => ?_, fun depth acc bs fs rest h => ?_⟩
    · unfold valueLoop at h
      split at h
      · rename_i r hr
        split at h
        · cases h
        · rename_i depth
          split at h
          · rename_i rest' hrest
            obtain ⟨rfl, rfl⟩ : Value.array [] = v ∧ rest' = rest := by simpa using h
            exact .noItems hr hrest
          · obtain ⟨⟨vs, r'⟩, hi, heq⟩ := Option.map_eq_some_iff.1 h
            obtain ⟨rfl, rfl⟩ : Value.array vs = v ∧ r' = rest := by simpa using heq
            obtain ⟨vs', rfl, hreads⟩ := ihi _ _ _ _ _ hi
            exact .array hr hreads
      · rename_i r hr
        split at h
        · cases h
        · rename_i depth
          split at h
          · rename_i rest' hrest
            obtain ⟨rfl, rfl⟩ : Value.object [] = v ∧ rest' = rest := by simpa using h
            exact .noFields hr hrest
          · obtain ⟨⟨fs, r'⟩, hi, heq⟩ := Option.map_eq_some_iff.1 h
            obtain ⟨rfl, rfl⟩ : Value.object (Fields.ofList fs) = v ∧ r' = rest := by simpa using heq
            obtain ⟨fs', rfl, hreads⟩ := ihf _ _ _ _ _ hi
            exact .object hr hreads
      · exact .scalar h
    · unfold itemsLoop at h
      split at h
      · cases h
      · rename_i v r hv
        split at h
        · rename_i r' hr'
          obtain ⟨vs', rfl, hreads⟩ := ihi _ _ _ _ _ h
          exact ⟨v :: vs', by simp, .nextItem (ihv _ _ _ _ hv) hr' hreads⟩
        · rename_i rest' hrest
          obtain ⟨rfl, rfl⟩ : (v :: acc).reverse = vs ∧ rest' = rest := by simpa using h
          exact ⟨[v], by simp, .lastItem (ihv _ _ _ _ hv) hrest⟩
        · cases h
    · unfold fieldsLoop at h
      split at h
      · cases h
      · rename_i name r hn
        split at h
        · cases h
        · rename_i v r' hv
          split at h
          · rename_i r'' hr''
            obtain ⟨fs', rfl, hreads⟩ := ihf _ _ _ _ _ h
            exact ⟨(name, v) :: fs', by simp, .nextField hn (ihv _ _ _ _ hv) hr'' hreads⟩
          · rename_i rest' hrest
            obtain ⟨rfl, rfl⟩ : ((name, v) :: acc).reverse = fs ∧ rest' = rest := by simpa using h
            exact ⟨[(name, v)], by simp, .lastField hn (ihv _ _ _ _ hv) hrest⟩
          · cases h

theorem Reads.length_lt {depth : Nat} {bs rest : List UInt8} {p : Part} (h : Reads depth bs p rest) :
    rest.length < bs.length := by
  induction h with
  | scalar h => exact Nat.lt_of_lt_of_le (looksNoFurther_scalar.length_lt h) (length_skipSpace_le _)
  | noItems h hr | noFields h hr => exact Nat.lt_trans (length_of_skipSpace hr) (length_of_skipSpace h)
  | array h _ ih | object h _ ih =>
    exact Nat.lt_trans (Nat.lt_of_lt_of_le ih (length_skipSpace_le _)) (length_of_skipSpace h)
  | lastItem _ hr ih => exact Nat.lt_trans (length_of_skipSpace hr) ih
  | nextItem _ hr _ ih ih' => exact Nat.lt_trans (Nat.lt_trans ih' (length_of_skipSpace hr)) ih
  | lastField hn _ hr ih =>
    exact Nat.lt_trans (Nat.lt_trans (length_of_skipSpace hr) ih) (looksNoFurther_fieldName.length_lt hn)
  | nextField hn _ hr _ ih ih' =>
    have := length_of_skipSpace hr
    have := looksNoFurther_fieldName.length_lt hn
    omega

/-- What the loops make of bytes that the grammar reads as a part. -/
def LoopReads (fuel depth : Nat) (bs : List UInt8) (rest : List UInt8) : Part → Prop
  | .value v => valueLoop fuel depth bs = some (v, rest)
  | .items vs => ∀ acc, itemsLoop fuel depth acc bs = some (acc.reverse ++ vs, rest)
  | .fields fs => ∀ acc, fieldsLoop fuel depth acc bs = some (acc.reverse ++ fs, rest)

theorem valueLoop_scalar {bs rest : List UInt8} {v : Value} (fuel depth : Nat)
    (h : scalar (skipSpace bs) = some (v, rest)) : valueLoop (fuel + 1) depth bs = some (v, rest) := by
  obtain ⟨b, tail, hbs, hb⟩ := scalar_cases h
  rw [hbs] at h
  unfold valueLoop
  rw [hbs]
  split
  · rename_i heq
    obtain rfl : b = 0x5B := (List.cons.inj heq).1
    exact absurd hb (by decide)
  · rename_i heq
    obtain rfl : b = 0x7B := (List.cons.inj heq).1
    exact absurd hb (by decide)
  · exact h

theorem valueLoop_array {bs r rest : List UInt8} {vs : List Value} {fuel depth : Nat} (h : skipSpace bs = 0x5B :: r)
    (hr : itemsLoop fuel depth [] (skipSpace r) = some (vs, rest)) (hne : ∀ tail, skipSpace r ≠ 0x5D :: tail) :
    valueLoop (fuel + 1) (depth + 1) bs = some (.array vs, rest) := by
  simp [valueLoop, h, hr]

theorem valueLoop_object {bs r rest : List UInt8} {fs : Fields} {fuel depth : Nat} (h : skipSpace bs = 0x7B :: r)
    (hr : fieldsLoop fuel depth [] (skipSpace r) = some (fs, rest)) (hne : ∀ tail, skipSpace r ≠ 0x7D :: tail) :
    valueLoop (fuel + 1) (depth + 1) bs = some (.object (Fields.ofList fs), rest) := by
  simp [valueLoop, h, hr]

/-- The items of an array do not begin with its end. -/
theorem Reads.items_ne {depth : Nat} {r rest : List UInt8} {vs : List Value}
    (h : Reads depth (skipSpace r) (.items vs) rest) (tail : List UInt8) : skipSpace r ≠ 0x5D :: tail := by
  have hvalue : ∀ {v : Value} {rest' : List UInt8}, Reads depth (skipSpace r) (.value v) rest' →
      skipSpace r ≠ 0x5D :: tail := by
    intro v rest' hv heq
    cases hv with
    | scalar h =>
      obtain ⟨b, tail', hb, hc⟩ := scalar_cases h
      rw [skipSpace_skipSpace, heq] at hb
      obtain rfl : 0x5D = b := (List.cons.inj hb).1
      exact absurd hc (by decide)
    | noItems h | array h | noFields h | object h =>
      rw [skipSpace_skipSpace, heq] at h
      exact absurd (List.cons.inj h).1 (by decide)
  cases h with
  | lastItem hv => exact hvalue hv
  | nextItem hv => exact hvalue hv

/-- The fields of an object do not begin with its end. -/
theorem Reads.fields_ne {depth : Nat} {r rest : List UInt8} {fs : Fields}
    (h : Reads depth (skipSpace r) (.fields fs) rest) (tail : List UInt8) : skipSpace r ≠ 0x7D :: tail := by
  have hname : ∀ {name : String} {rest' : List UInt8}, fieldName (skipSpace r) = some (name, rest') →
      skipSpace r ≠ 0x7D :: tail := by
    intro name rest' hn heq
    obtain ⟨r', -, hr', -⟩ := fieldName_eq_some_iff.1 hn
    rw [skipSpace_skipSpace, heq] at hr'
    exact absurd (List.cons.inj hr').1 (by decide)
  cases h with
  | lastField hn => exact hname hn
  | nextField hn => exact hname hn

/-- **The loops read what the grammar reads**, if their fuel is no less than the bytes that are taken. -/
theorem Reads.loopReads {depth : Nat} {bs rest : List UInt8} {p : Part} (h : Reads depth bs p rest) :
    ∀ fuel, bs.length ≤ fuel + rest.length → LoopReads fuel depth bs rest p := by
  induction h with
  | @scalar depth bs rest v h =>
    intro fuel hf
    have := (@Reads.scalar depth _ _ _ h).length_lt
    obtain ⟨fuel, rfl⟩ : ∃ n, fuel = n + 1 := ⟨fuel - 1, by omega⟩
    exact valueLoop_scalar fuel depth h
  | @noItems depth bs r rest h hr =>
    intro fuel hf
    have := (@Reads.noItems depth _ _ _ h hr).length_lt
    obtain ⟨fuel, rfl⟩ : ∃ n, fuel = n + 1 := ⟨fuel - 1, by omega⟩
    simp [LoopReads, valueLoop, h, hr]
  | @noFields depth bs r rest h hr =>
    intro fuel hf
    have := (@Reads.noFields depth _ _ _ h hr).length_lt
    obtain ⟨fuel, rfl⟩ : ∃ n, fuel = n + 1 := ⟨fuel - 1, by omega⟩
    simp [LoopReads, valueLoop, h, hr]
  | @array depth bs r rest vs h hr ih =>
    intro fuel hf
    have := (Reads.array h hr).length_lt
    have := length_of_skipSpace h
    have := length_skipSpace_le r
    obtain ⟨fuel, rfl⟩ : ∃ n, fuel = n + 1 := ⟨fuel - 1, by omega⟩
    exact valueLoop_array h (ih fuel (by omega) []) hr.items_ne
  | @object depth bs r rest fs h hr ih =>
    intro fuel hf
    have := (Reads.object h hr).length_lt
    have := length_of_skipSpace h
    have := length_skipSpace_le r
    obtain ⟨fuel, rfl⟩ : ∃ n, fuel = n + 1 := ⟨fuel - 1, by omega⟩
    exact valueLoop_object h (ih fuel (by omega) []) hr.fields_ne
  | @lastItem depth bs r rest v hv hr ih =>
    intro fuel hf acc
    have := hv.length_lt
    have := length_of_skipSpace hr
    obtain ⟨fuel, rfl⟩ : ∃ n, fuel = n + 1 := ⟨fuel - 1, by omega⟩
    have hv' : valueLoop fuel depth bs = some (v, r) := ih fuel (by omega)
    simp [itemsLoop, hv', hr]
  | @nextItem depth bs r r' rest v vs hv hr hvs ih ih' =>
    intro fuel hf acc
    have := hv.length_lt
    have := hvs.length_lt
    have := length_of_skipSpace hr
    obtain ⟨fuel, rfl⟩ : ∃ n, fuel = n + 1 := ⟨fuel - 1, by omega⟩
    have hv' : valueLoop fuel depth bs = some (v, r) := ih fuel (by omega)
    simp [itemsLoop, hv', hr, ih' fuel (by omega) (v :: acc)]
  | @lastField depth bs r r' rest name v hn hv hr ih =>
    intro fuel hf acc
    have := looksNoFurther_fieldName.length_lt hn
    have := hv.length_lt
    have := length_of_skipSpace hr
    obtain ⟨fuel, rfl⟩ : ∃ n, fuel = n + 1 := ⟨fuel - 1, by omega⟩
    have hv' : valueLoop fuel depth r = some (v, r') := ih fuel (by omega)
    simp [fieldsLoop, hn, hv', hr]
  | @nextField depth bs r r' r'' rest name v fs hn hv hr hfs ih ih' =>
    intro fuel hf acc
    have := looksNoFurther_fieldName.length_lt hn
    have := hv.length_lt
    have := hfs.length_lt
    have := length_of_skipSpace hr
    obtain ⟨fuel, rfl⟩ : ∃ n, fuel = n + 1 := ⟨fuel - 1, by omega⟩
    have hv' : valueLoop fuel depth r = some (v, r') := ih fuel (by omega)
    simp [fieldsLoop, hn, hv', hr, ih' fuel (by omega) ((name, v) :: acc)]

/-- A part that is read at a depth is read where more depth is left. -/
theorem Reads.mono {depth depth' : Nat} {bs rest : List UInt8} {p : Part} (h : Reads depth bs p rest)
    (hd : depth ≤ depth') : Reads depth' bs p rest := by
  induction h generalizing depth' with
  | scalar h => exact .scalar h
  | noItems h hr =>
    obtain ⟨depth', rfl⟩ : ∃ n, depth' = n + 1 := ⟨depth' - 1, by omega⟩
    exact .noItems h hr
  | array h _ ih =>
    obtain ⟨depth', rfl⟩ : ∃ n, depth' = n + 1 := ⟨depth' - 1, by omega⟩
    exact .array h (ih (by omega))
  | noFields h hr =>
    obtain ⟨depth', rfl⟩ : ∃ n, depth' = n + 1 := ⟨depth' - 1, by omega⟩
    exact .noFields h hr
  | object h _ ih =>
    obtain ⟨depth', rfl⟩ : ∃ n, depth' = n + 1 := ⟨depth' - 1, by omega⟩
    exact .object h (ih (by omega))
  | lastItem _ hr ih => exact .lastItem (ih hd) hr
  | nextItem _ hr _ ih ih' => exact .nextItem (ih hd) hr (ih' hd)
  | lastField hn _ hr ih => exact .lastField hn (ih hd) hr
  | nextField hn _ hr _ ih ih' => exact .nextField hn (ih hd) hr (ih' hd)


/-! ## How far the grammar looks -/

/-- What may follow a part: anything behind a closing bracket, and behind a value what cannot lengthen a number. -/
def Part.Follows : Part → List UInt8 → Prop
  | .value _, q => StopsAt goesOn q
  | .items _, _ => True
  | .fields _, _ => True

/-- No number goes on with a blank or with a mark that has a meaning of its own. -/
theorem stopsAt_goesOn_spaces {sp : List UInt8} {b : UInt8} (hsp : ∀ c ∈ sp, isSpace c = true) (hb : goesOn b = false)
    (q : List UInt8) : StopsAt goesOn (sp ++ b :: q) := by
  refine stopsAt_append (fun c tail hc => ?_) fun _ d hd => ?_
  · have := hsp c (by simp [hc])
    simp only [isSpace, Bool.or_eq_true, beq_iff_eq] at this
    rcases this with ((rfl | rfl) | rfl) | rfl <;> decide
  · obtain rfl : b = d := by simpa using hd
    exact hb

/-- Bytes that begin with a token begin with it whatever follows them. -/
theorem skipSpace_used {bs used rest : List UInt8} (h : skipSpace bs = used ++ rest) (hs : Solid used)
    (q : List UInt8) : skipSpace (used ++ q) = used ++ q := by
  obtain ⟨b, tail, hu⟩ : ∃ b tail, used = b :: tail := by
    cases used with
    | nil =>
      obtain ⟨init, b, hb, -⟩ := hs
      simp at hb
    | cons b tail => exact ⟨b, tail, rfl⟩
  subst hu
  obtain ⟨-, -, hb, -⟩ := eq_spaces_cons h
  exact skipSpace_cons hb (tail ++ q)

/-- What stands in brackets is read off the brackets and what is between them, if what is inside is. -/
theorem looksNoFurther_bracket {opening : UInt8} (Inner : List UInt8 → List UInt8 → Prop) {bs r rest : List UInt8}
    (h : skipSpace bs = opening :: r)
    (hi : ∃ used, skipSpace r = used ++ rest ∧ Solid used ∧ ∀ q, Inner (used ++ q) q) :
    ∃ used, bs = used ++ rest ∧ Solid used ∧ ∀ q, ∃ r', skipSpace (used ++ q) = opening :: r' ∧ Inner (skipSpace r') q := by
  obtain ⟨sp, hsp, hb, rfl⟩ := eq_spaces_cons h
  obtain ⟨sp', hsp', hr⟩ := exists_spaces r
  obtain ⟨used, hu, hs, hq⟩ := hi
  refine ⟨sp ++ opening :: (sp' ++ used), by simp [← hu, ← hr], (hs.append (opening :: sp')).append sp, fun q => ?_⟩
  refine ⟨sp' ++ (used ++ q), by simpa using skipSpace_spaces_cons hsp hb (sp' ++ (used ++ q)), ?_⟩
  rw [skipSpace_append hsp', skipSpace_used hu hs]
  exact hq q

/-- Brackets with nothing between them. -/
theorem looksNoFurther_noInner {opening closing : UInt8} {bs r rest : List UInt8} (h : skipSpace bs = opening :: r)
    (hr : skipSpace r = closing :: rest) :
    ∃ used, bs = used ++ rest ∧ Solid used ∧ ∀ q, ∃ r', skipSpace (used ++ q) = opening :: r' ∧
      skipSpace r' = closing :: q := by
  obtain ⟨-, -, hb, -⟩ := eq_spaces_cons hr
  exact looksNoFurther_bracket (fun bs rest => bs = closing :: rest) h
    ⟨[closing], hr, solid_singleton hb, fun _ => rfl⟩

/-- **A part is read off the bytes that it takes**, and of what follows only what `Part.Follows` says matters. -/
theorem Reads.looksNoFurther {depth : Nat} {bs rest : List UInt8} {p : Part} (h : Reads depth bs p rest) :
    ∃ used, bs = used ++ rest ∧ Solid used ∧ ∀ q, p.Follows q → Reads depth (used ++ q) p q := by
  induction h with
  | @scalar depth bs rest v h =>
    obtain ⟨sp, hsp, hbs⟩ := exists_spaces bs
    obtain ⟨used, hu, hs, hq⟩ := looksNoFurther_scalar _ _ _ h
    refine ⟨sp ++ used, by rw [List.append_assoc, ← hu, ← hbs], hs.append sp, fun q hok => .scalar ?_⟩
    rw [List.append_assoc, skipSpace_append hsp, skipSpace_used hu hs]
    exact hq q hok
  | noItems h hr =>
    obtain ⟨used, hu, hs, hq⟩ := looksNoFurther_noInner h hr
    exact ⟨used, hu, hs, fun q _ => let ⟨_, h, hr⟩ := hq q; .noItems h hr⟩
  | @array depth _ _ _ vs h _ ih =>
    obtain ⟨used', hu', hs', hq'⟩ := ih
    obtain ⟨used, hu, hs, hq⟩ := looksNoFurther_bracket (Reads depth · (.items vs) ·) h
      ⟨used', hu', hs', fun q => hq' q trivial⟩
    exact ⟨used, hu, hs, fun q _ => let ⟨_, h, hr⟩ := hq q; .array h hr⟩
  | noFields h hr =>
    obtain ⟨used, hu, hs, hq⟩ := looksNoFurther_noInner h hr
    exact ⟨used, hu, hs, fun q _ => let ⟨_, h, hr⟩ := hq q; .noFields h hr⟩
  | @object depth _ _ _ fs h _ ih =>
    obtain ⟨used', hu', hs', hq'⟩ := ih
    obtain ⟨used, hu, hs, hq⟩ := looksNoFurther_bracket (Reads depth · (.fields fs) ·) h
      ⟨used', hu', hs', fun q => hq' q trivial⟩
    exact ⟨used, hu, hs, fun q _ => let ⟨_, h, hr⟩ := hq q; .object h hr⟩
  | @lastItem depth bs r rest v hv hr ih =>
    obtain ⟨used, rfl, -, hq⟩ := ih
    obtain ⟨sp, hsp, hb, rfl⟩ := eq_spaces_cons hr
    refine ⟨used ++ (sp ++ [0x5D]), by simp, ⟨used ++ sp, 0x5D, by simp, hb⟩, fun q _ => ?_⟩
    refine .lastItem (r := sp ++ 0x5D :: q) ?_ (skipSpace_spaces_cons hsp hb q)
    simpa using hq (sp ++ 0x5D :: q) (stopsAt_goesOn_spaces hsp (by decide) q)
  | @nextItem depth bs r r' rest v vs hv hr hvs ih ih' =>
    obtain ⟨used, rfl, -, hq⟩ := ih
    obtain ⟨sp, hsp, hb, rfl⟩ := eq_spaces_cons hr
    obtain ⟨used', rfl, hs', hq'⟩ := ih'
    refine ⟨used ++ (sp ++ 0x2C :: used'), by simp, ((hs'.append [0x2C]).append sp).append used,
      fun q _ => ?_⟩
    refine .nextItem (r := sp ++ 0x2C :: (used' ++ q)) ?_ (skipSpace_spaces_cons hsp hb _) (hq' q trivial)
    simpa using hq (sp ++ 0x2C :: (used' ++ q)) (stopsAt_goesOn_spaces hsp (by decide) _)
  | @lastField depth bs r r' rest name v hn hv hr ih =>
    obtain ⟨usedn, rfl, -, hqn⟩ := looksNoFurther_fieldName _ _ _ hn
    obtain ⟨used, rfl, -, hq⟩ := ih
    obtain ⟨sp, hsp, hb, rfl⟩ := eq_spaces_cons hr
    refine ⟨usedn ++ (used ++ (sp ++ [0x7D])), by simp, ⟨usedn ++ (used ++ sp), 0x7D, by simp, hb⟩, fun q _ => ?_⟩
    refine .lastField (r := used ++ (sp ++ 0x7D :: q)) (by simpa using hqn (used ++ (sp ++ 0x7D :: q)) trivial)
      (hq _ (stopsAt_goesOn_spaces hsp (by decide) q)) (skipSpace_spaces_cons hsp hb q)
  | @nextField depth bs r r' r'' rest name v fs hn hv hr hfs ih ih' =>
    obtain ⟨usedn, rfl, -, hqn⟩ := looksNoFurther_fieldName _ _ _ hn
    obtain ⟨used, rfl, -, hq⟩ := ih
    obtain ⟨sp, hsp, hb, rfl⟩ := eq_spaces_cons hr
    obtain ⟨used', rfl, hs', hq'⟩ := ih'
    refine ⟨usedn ++ (used ++ (sp ++ 0x2C :: used')), by simp,
      (((hs'.append [0x2C]).append sp).append used).append usedn, fun q _ => ?_⟩
    refine .nextField (r := used ++ (sp ++ 0x2C :: (used' ++ q)))
      (by simpa using hqn (used ++ (sp ++ 0x2C :: (used' ++ q))) trivial)
      (hq _ (stopsAt_goesOn_spaces hsp (by decide) _)) (skipSpace_spaces_cons hsp hb _) (hq' q trivial)

end Reader
end Json
end SearchTelemetry
