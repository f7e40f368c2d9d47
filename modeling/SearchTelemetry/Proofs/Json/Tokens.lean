import Mathlib.Data.List.TakeWhile
import SearchTelemetry.Json.Written
/-!
# Json.Tokens — how far the readers of strings, numbers and words look

A reader that has taken a token does not look behind it (`LooksNoFurther`): whatever else follows, it takes the same bytes
for the same token.  Only a number may grow by what follows; it does not where the next byte is no part of a numeral
(`goesOn`).  The last byte of a token is no blank (`Solid`), so that a token is never cut short by blanks taken off the end
of a text.
-/
namespace SearchTelemetry
namespace Json
namespace Reader

/-- Bytes whose last one is no blank. -/
def Solid (bs : List UInt8) : Prop :=
  ∃ init b, bs = init ++ [b] ∧ isSpace b = false

theorem solid_singleton {b : UInt8} (h : isSpace b = false) : Solid [b] :=
  ⟨[], b, rfl, h⟩

theorem Solid.append {bs : List UInt8} (as : List UInt8) : Solid bs → Solid (as ++ bs)
  | ⟨init, b, h, hb⟩ => ⟨as ++ init, b, by rw [h, List.append_assoc], hb⟩

theorem Solid.eq_cons {b : UInt8} {tail used rest : List UInt8} :
    Solid used → b :: tail = used ++ rest → ∃ used', used = b :: used'
  | ⟨init, c, hu, _⟩, h => by
    subst hu
    cases init with
    | nil => exact ⟨[], by rw [(List.cons.inj h).1]; rfl⟩
    | cons a init => exact ⟨init ++ [c], by rw [(List.cons.inj h).1]; rfl⟩

/-- Bytes that end with a token have no blanks at their end to spare. -/
theorem eq_nil_of_solid_append {bs sp : List UInt8} (h : Solid (bs ++ sp)) (hsp : ∀ b ∈ sp, isSpace b = true) :
    sp = [] := by
  obtain ⟨init, b, heq, hb⟩ := h
  by_cases hne : sp = []
  · exact hne
  · rw [← List.dropLast_concat_getLast hne, ← List.append_assoc] at heq
    obtain ⟨-, hlast⟩ := List.append_inj' heq rfl
    have := hsp _ (List.getLast_mem hne)
    rw [(List.cons.inj hlast).1, hb] at this
    cases this

/-- A reader looks no further than the bytes it takes, as long as `Ok` holds of what follows them; the last of them is
no blank. -/
def LooksNoFurther {α : Type} (read : List UInt8 → Option (α × List UInt8)) (Ok : List UInt8 → Prop) : Prop :=
  ∀ bs a rest, read bs = some (a, rest) →
    ∃ used, bs = used ++ rest ∧ Solid used ∧ ∀ q, Ok q → read (used ++ q) = some (a, q)

theorem LooksNoFurther.length_lt {α : Type} {read : List UInt8 → Option (α × List UInt8)} {Ok : List UInt8 → Prop}
    (h : LooksNoFurther read Ok) {bs rest : List UInt8} {a : α} (ha : read bs = some (a, rest)) :
    rest.length < bs.length := by
  obtain ⟨used, rfl, ⟨init, b, rfl, -⟩, -⟩ := h _ _ _ ha
  simp only [List.length_append, List.length_singleton]
  omega

/-! ## Blanks -/

theorem exists_spaces (bs : List UInt8) : ∃ sp, (∀ b ∈ sp, isSpace b = true) ∧ bs = sp ++ skipSpace bs :=
  ⟨bs.takeWhile isSpace, fun _ hb => List.mem_takeWhile_imp hb, (List.takeWhile_append_dropWhile).symm⟩

theorem skipSpace_append {sp : List UInt8} (hsp : ∀ b ∈ sp, isSpace b = true) (bs : List UInt8) :
    skipSpace (sp ++ bs) = skipSpace bs :=
  List.dropWhile_append_of_pos hsp

theorem skipSpace_cons {b : UInt8} (hb : isSpace b = false) (bs : List UInt8) : skipSpace (b :: bs) = b :: bs := by
  simp [skipSpace, hb]

/-- The next token begins with a byte that is no blank, behind blanks. -/
theorem eq_spaces_cons {bs r : List UInt8} {b : UInt8} (h : skipSpace bs = b :: r) :
    ∃ sp, (∀ c ∈ sp, isSpace c = true) ∧ isSpace b = false ∧ bs = sp ++ b :: r := by
  obtain ⟨sp, hsp, hbs⟩ := exists_spaces bs
  refine ⟨sp, hsp, ?_, h ▸ hbs⟩
  have := List.head?_dropWhile_not isSpace bs
  rw [show bs.dropWhile isSpace = b :: r from h] at this
  simpa using this

theorem skipSpace_spaces_cons {sp : List UInt8} {b : UInt8} (hsp : ∀ c ∈ sp, isSpace c = true)
    (hb : isSpace b = false) (r : List UInt8) : skipSpace (sp ++ b :: r) = b :: r := by
  rw [skipSpace_append hsp, skipSpace_cons hb]

theorem skipSpace_eq_nil_iff {bs : List UInt8} : skipSpace bs = [] ↔ ∀ b ∈ bs, isSpace b = true :=
  List.dropWhile_eq_nil_iff

theorem skipSpace_skipSpace (bs : List UInt8) : skipSpace (skipSpace bs) = skipSpace bs := by
  cases h : skipSpace bs with
  | nil => rfl
  | cons b r =>
    obtain ⟨-, -, hb, -⟩ := eq_spaces_cons h
    exact skipSpace_cons hb r

theorem length_skipSpace_le (bs : List UInt8) : (skipSpace bs).length ≤ bs.length :=
  List.length_dropWhile_le isSpace bs

theorem length_of_skipSpace {bs r : List UInt8} {b : UInt8} (h : skipSpace bs = b :: r) : r.length < bs.length := by
  have := length_skipSpace_le bs
  rw [h, List.length_cons] at this
  omega

/-! ## Strings -/

theorem stringLoop_quote (acc rest : List UInt8) : stringLoop acc (0x22 :: rest) = some (acc.reverse, rest) := by
  unfold stringLoop; rfl

theorem stringLoop_plain {b : UInt8} (acc rest : List UInt8) (hq : b ≠ 0x22) (hs : b ≠ 0x5C) (hc : ¬b < 0x20) :
    stringLoop acc (b :: rest) = stringLoop (b :: acc) rest := by
  rw [stringLoop.eq_def]
  simp [hq, hs, hc]

theorem stringLoop_short {e b : UInt8} (acc rest : List UInt8) (he : e ≠ 0x75) (hb : shortEscape? e = some b) :
    stringLoop acc (0x5C :: e :: rest) = stringLoop (b :: acc) rest := by
  rw [stringLoop.eq_def]
  simp [he, hb]

theorem stringLoop_hex {h1 h2 h3 h4 : UInt8} {n : Nat} (acc rest : List UInt8) (hn : hex4? h1 h2 h3 h4 = some n)
    (hl : isLowHalf n = false) (hh : isHighHalf n = false) :
    stringLoop acc (0x5C :: 0x75 :: h1 :: h2 :: h3 :: h4 :: rest) =
      stringLoop ((Utf8.encodeChar (Char.ofNat n)).reverse ++ acc) rest := by
  rw [stringLoop.eq_def]
  simp [hn, hl, hh]

theorem stringLoop_pair {h1 h2 h3 h4 l1 l2 l3 l4 : UInt8} {n m : Nat} (acc rest : List UInt8)
    (hn : hex4? h1 h2 h3 h4 = some n) (hm : hex4? l1 l2 l3 l4 = some m)
    (hl : isLowHalf n = false) (hh : isHighHalf n = true) (hlm : isLowHalf m = true) :
    stringLoop acc (0x5C :: 0x75 :: h1 :: h2 :: h3 :: h4 :: 0x5C :: 0x75 :: l1 :: l2 :: l3 :: l4 :: rest) =
      stringLoop ((Utf8.encodeChar (joinHalves n m)).reverse ++ acc) rest := by
  rw [stringLoop.eq_def]
  simp [hn, hl, hh, hm, hlm]

theorem looksNoFurther_stringLoop (acc : List UInt8) : LooksNoFurther (stringLoop acc) fun _ => True := by
  intro bs content rest h
  fun_induction stringLoop acc bs with
  | case2 acc tail =>
    obtain ⟨rfl, rfl⟩ : acc.reverse = content ∧ tail = rest := by simpa using h
    exact ⟨[0x22], rfl, solid_singleton (by decide), fun q _ => stringLoop_quote acc q⟩
  | case7 acc h1 h2 h3 h4 n hn hl hh s u l1 l2 l3 l4 tail hsu m hm hlm _ ih =>
    obtain ⟨rfl, rfl⟩ := hsu
    obtain ⟨used, rfl, hs, hq⟩ := ih h
    refine ⟨[0x5C, 0x75, h1, h2, h3, h4, 0x5C, 0x75, l1, l2, l3, l4] ++ used, rfl, hs.append _, fun q _ => ?_⟩
    exact (stringLoop_pair acc _ hn hm (by simpa using hl) hh hlm).trans (hq q trivial)
  | case11 acc h1 h2 h3 h4 tail n hn hl hh _ ih =>
    obtain ⟨used, rfl, hs, hq⟩ := ih h
    refine ⟨[0x5C, 0x75, h1, h2, h3, h4] ++ used, rfl, hs.append _, fun q _ => ?_⟩
    exact (stringLoop_hex acc _ hn (by simpa using hl) (by simpa using hh)).trans (hq q trivial)
  | case14 acc e tail he b hb _ ih =>
    obtain ⟨used, rfl, hs, hq⟩ := ih h
    exact ⟨[0x5C, e] ++ used, rfl, hs.append _, fun q _ => (stringLoop_short acc _ he hb).trans (hq q trivial)⟩
  | case16 acc b tail hb hs hc ih =>
    obtain ⟨used, rfl, hu, hq⟩ := ih h
    exact ⟨[b] ++ used, rfl, hu.append [b], fun q _ => (stringLoop_plain acc _ hb hs hc).trans (hq q trivial)⟩
  | _ => cases h

theorem looksNoFurther_string : LooksNoFurther string fun _ => True := by
  intro bs s rest h
  unfold string at h
  split at h
  · cases h
  · rename_i content rest' hc
    obtain ⟨used, rfl, hs, hq⟩ := looksNoFurther_stringLoop [] bs _ _ hc
    obtain ⟨s', hs', heq⟩ := Option.map_eq_some_iff.1 h
    obtain ⟨rfl, rfl⟩ : s' = s ∧ rest' = rest := by simpa using heq
    refine ⟨used, rfl, hs, fun q _ => ?_⟩
    rw [string, hq q trivial]
    simp [hs']

theorem after?_eq_some_iff {es bs rest : List UInt8} : after? es bs = some rest ↔ bs = es ++ rest := by
  fun_induction after? es bs with
  | case1 bs => simp [eq_comm]
  | case2 => simp
  | case3 es b bs ih => simp [ih]
  | case4 e es b bs hb => simp [Ne.symm hb]

/-! ## The parts of a numeral -/

/-- The bytes do not go on with one of which `p` holds. -/
def StopsAt (p : UInt8 → Bool) (bs : List UInt8) : Prop :=
  ∀ b ∈ bs.head?, p b = false

/-- The bytes that a numeral may go on with behind its whole part. -/
def goesOn (b : UInt8) : Bool :=
  isDigit b || b == 0x2E || b == 0x65 || b == 0x45

theorem digitRun_append {ds q : List UInt8} (hd : ds.all isDigit) (hq : StopsAt isDigit q) :
    digitRun (ds ++ q) = (ds, q) := by
  have hd' : ∀ b ∈ ds, isDigit b = true := by simpa using hd
  have htake : q.takeWhile isDigit = [] := by
    cases q with
    | nil => rfl
    | cons b q => simp [hq b rfl]
  have hdrop : q.dropWhile isDigit = q := by
    cases q with
    | nil => rfl
    | cons b q => simp [hq b rfl]
  rw [digitRun, List.takeWhile_append_of_pos hd', List.dropWhile_append_of_pos hd', htake, hdrop, List.append_nil]

theorem of_digitRun {bs ds rest : List UInt8} (h : digitRun bs = (ds, rest)) :
    bs = ds ++ rest ∧ ds.all isDigit ∧ StopsAt isDigit rest := by
  obtain ⟨rfl, rfl⟩ : bs.takeWhile isDigit = ds ∧ bs.dropWhile isDigit = rest := by simpa [digitRun] using h
  refine ⟨(List.takeWhile_append_dropWhile).symm, List.all_takeWhile, fun b hb => ?_⟩
  have := List.head?_dropWhile_not isDigit bs
  rw [Option.mem_def.1 hb] at this
  simpa using this

/-- Bytes that end with a digit. -/
def EndsInDigit (bs : List UInt8) : Prop :=
  ∃ init d, bs = init ++ [d] ∧ isDigit d = true

theorem endsInDigit_of_all {ds : List UInt8} (as : List UInt8) (hd : ds.all isDigit) (hne : ds ≠ []) :
    EndsInDigit (as ++ ds) := by
  refine ⟨as ++ ds.dropLast, ds.getLast hne, ?_, List.all_eq_true.1 hd _ (List.getLast_mem hne)⟩
  rw [List.append_assoc, List.dropLast_concat_getLast hne]

/-- A part of a numeral that may be missing: where it is there, it begins with a byte of which `starts` holds and ends
with a digit. -/
def ReadsPart {α : Type} (starts : UInt8 → Bool) (read : List UInt8 → Option (Option α × List UInt8)) : Prop :=
  ∀ bs a rest, read bs = some (a, rest) →
    ∃ used, bs = used ++ rest ∧ (∀ b tail, used = b :: tail → starts b = true) ∧ (used = [] ∨ EndsInDigit used) ∧
      ∀ q, StopsAt isDigit q → (used = [] → StopsAt starts q) → read (used ++ q) = some (a, q)

theorem fraction_of_stopsAt {q : List UInt8} (hq : StopsAt (· == 0x2E) q) : fraction q = some (none, q) := by
  unfold fraction
  split
  · exact absurd (hq 0x2E rfl) (by decide)
  · rfl

theorem fraction_append {ds q : List UInt8} (hd : ds.all isDigit) (hne : ds ≠ []) (hq : StopsAt isDigit q) :
    fraction (0x2E :: ds ++ q) = some (some ds, q) := by
  simp [fraction, digitRun_append hd hq, hne]

theorem readsPart_fraction : ReadsPart (· == 0x2E) fraction := by
  intro bs f rest h
  unfold fraction at h
  split at h
  · rename_i tail
    cases hrun : digitRun tail with
    | mk ds tail' =>
      obtain ⟨rfl, hd, -⟩ := of_digitRun hrun
      by_cases hne : ds = []
      · simp only [hrun] at h
        simp [hne] at h
      · obtain ⟨rfl, rfl⟩ : some ds = f ∧ tail' = rest := by simpa [hrun, hne] using h
        refine ⟨0x2E :: ds, rfl, fun b tail hb => ?_, .inr (endsInDigit_of_all [0x2E] hd hne), fun q hq _ => ?_⟩
        · simp [← (List.cons.inj hb).1]
        · exact fraction_append hd hne hq
  · rename_i hbs
    obtain ⟨rfl, rfl⟩ : none = f ∧ bs = rest := by simpa using h
    exact ⟨[], rfl, (fun _ _ hb => by cases hb), .inl rfl, fun q _ hs => fraction_of_stopsAt (hs rfl)⟩


/-- The letter that announces an exponent. -/
def isExponentMark (b : UInt8) : Bool :=
  b == 0x65 || b == 0x45

theorem exponent_of_stopsAt {q : List UInt8} (hq : StopsAt isExponentMark q) : exponent q = some (none, q) := by
  unfold exponent
  split
  · rename_i b q
    have hb : isExponentMark b = false := hq b rfl
    simp only [isExponentMark, Bool.or_eq_false_iff, beq_eq_false_iff_ne] at hb
    rw [if_neg (by simp [hb])]
  · rfl

/-- The exponent behind its mark, through the reader of the sign. -/
theorem exponent_cons {mark : UInt8} {tail ds q : List UInt8} {negative : Bool} (hm : isExponentMark mark = true)
    (hs : exponentSign tail = (negative, ds ++ q)) (hd : ds.all isDigit) (hne : ds ≠ []) (hq : StopsAt isDigit q) :
    exponent (mark :: tail) =
      some (some (if negative then -(digitsValue ds : Int) else digitsValue ds), q) := by
  have hm' : mark = 0x65 ∨ mark = 0x45 := by simpa [isExponentMark] using hm
  simp [exponent, hm', hs, digitRun_append hd hq, hne]

/-- The sign in front of an exponent is there or not, whatever the digits. -/
theorem exponentSign_eq {tail ds rest : List UInt8} {negative : Bool} (hs : exponentSign tail = (negative, ds ++ rest))
    (hne : ds ≠ []) : ∃ sign, tail = sign ++ ds ++ rest ∧ ∀ q, exponentSign (sign ++ ds ++ q) = (negative, ds ++ q) := by
  unfold exponentSign at hs
  split at hs
  · rename_i b tail
    split at hs
    · rename_i hb
      simp only [Prod.mk.injEq] at hs
      obtain ⟨rfl, rfl⟩ := hs
      exact ⟨[b], rfl, fun q => by simp [exponentSign, hb]⟩
    · rename_i hb
      split at hs
      · rename_i hb'
        simp only [Prod.mk.injEq] at hs
        obtain ⟨rfl, rfl⟩ := hs
        exact ⟨[b], rfl, fun q => by simp [exponentSign, hb']⟩
      · rename_i hb'
        simp only [Prod.mk.injEq] at hs
        obtain ⟨rfl, htail⟩ := hs
        cases ds with
        | nil => exact absurd rfl hne
        | cons d ds =>
          simp only [List.cons_append, List.cons.injEq] at htail
          obtain ⟨rfl, rfl⟩ := htail
          exact ⟨[], rfl, fun q => by simp [exponentSign, hb, hb']⟩
  · simp only [Prod.mk.injEq] at hs
    exact absurd (List.append_eq_nil_iff.1 hs.2.symm).1 hne

theorem readsPart_exponent : ReadsPart isExponentMark exponent := by
  intro bs e rest h
  by_cases hm : StopsAt isExponentMark bs
  · rw [exponent_of_stopsAt hm] at h
    obtain ⟨rfl, rfl⟩ : none = e ∧ bs = rest := by simpa using h
    exact ⟨[], rfl, (fun _ _ hb => by cases hb), .inl rfl, fun q _ hs => exponent_of_stopsAt (hs rfl)⟩
  · obtain ⟨mark, tail, rfl, hmark⟩ : ∃ b tail, bs = b :: tail ∧ isExponentMark b = true := by
      cases bs with
      | nil => exact absurd (fun b hb => by cases hb) hm
      | cons b tail => exact ⟨b, tail, rfl, by simpa [StopsAt] using hm⟩
    have hmark' : mark = 0x65 ∨ mark = 0x45 := by simpa [isExponentMark] using hmark
    cases hsign : exponentSign tail with
    | mk negative tail' =>
      cases hrun : digitRun tail' with
      | mk ds rest' =>
        obtain ⟨rfl, hd, hstop⟩ := of_digitRun hrun
        by_cases hne : ds = []
        · simp only [exponent, hmark', if_true, hsign, hrun] at h
          simp [hne] at h
        · rw [exponent_cons hmark hsign hd hne hstop] at h
          obtain ⟨rfl, rfl⟩ : _ = e ∧ rest' = rest := by simpa using h
          obtain ⟨sign, rfl, hsign'⟩ := exponentSign_eq hsign hne
          refine ⟨mark :: (sign ++ ds), by simp, fun b tail hb => ?_, .inr ?_, fun q hq _ => ?_⟩
          · rwa [← (List.cons.inj hb).1]
          · exact endsInDigit_of_all (mark :: sign) hd hne
          · exact exponent_cons hmark (hsign' q) hd hne hq

/-! ## Numerals -/

/-- A numeral behind its sign. -/
def unsignedNumeral (negative : Bool) (bs : List UInt8) : Option (Numeral × List UInt8) :=
  let (whole, rest) := digitRun bs
  if whole.isEmpty || (whole.head? == some 0x30 && whole.length != 1) then none
  else
    match fraction rest with
    | none => none
    | some (fraction, rest) =>
      match exponent rest with
      | none => none
      | some (exponent, rest) => some (⟨negative, whole, fraction, exponent⟩, rest)

theorem numeral_minus (bs : List UInt8) : numeral (0x2D :: bs) = unsignedNumeral true bs :=
  rfl

theorem numeral_of_stopsAt {bs : List UInt8} (h : StopsAt (· == 0x2D) bs) : numeral bs = unsignedNumeral false bs := by
  unfold numeral
  split
  rename_i negative bs' heq
  split at heq
  · exact absurd (h 0x2D rfl) (by decide)
  · obtain ⟨rfl, rfl⟩ : false = negative ∧ bs = bs' := by simpa using heq
    rfl

/-- The whole part of a numeral is well-formed: some digits, the first of several not zero. -/
def WholeOk (ds : List UInt8) : Prop :=
  ds.all isDigit ∧ ds ≠ [] ∧ (ds.head? = some 0x30 → ds.length = 1)

theorem unsignedNumeral_append {ds tail tail' q : List UInt8} {f : Option (List UInt8)} {e : Option Int}
    {negative : Bool} (hw : WholeOk ds) (htail : StopsAt isDigit tail)
    (hf : fraction tail = some (f, tail')) (he : exponent tail' = some (e, q)) :
    unsignedNumeral negative (ds ++ tail) = some (⟨negative, ds, f, e⟩, q) := by
  obtain ⟨hd, hne, hz⟩ := hw
  have hcond : (ds.isEmpty || (ds.head? == some 0x30 && ds.length != 1)) = false := by
    by_cases h0 : ds.head? = some 0x30
    · simp [hne, hz h0]
    · simp [hne, h0]
  simp [unsignedNumeral, digitRun_append hd htail, hcond, hf, he]

theorem of_unsignedNumeral {bs rest : List UInt8} {negative : Bool} {x : Numeral}
    (h : unsignedNumeral negative bs = some (x, rest)) :
    ∃ ds tail f tail' e, bs = ds ++ tail ∧ WholeOk ds ∧ StopsAt isDigit tail ∧ fraction tail = some (f, tail') ∧
      exponent tail' = some (e, rest) ∧ x = ⟨negative, ds, f, e⟩ := by
  unfold unsignedNumeral at h
  cases hrun : digitRun bs with
  | mk ds tail =>
    obtain ⟨rfl, hd, hstop⟩ := of_digitRun hrun
    simp only [hrun] at h
    split at h
    · cases h
    · rename_i hcond
      split at h
      · cases h
      · rename_i f tail' hf
        split at h
        · cases h
        · rename_i e rest' he
          obtain ⟨rfl, rfl⟩ : _ = x ∧ rest' = rest := by simpa using h
          refine ⟨ds, tail, f, tail', e, rfl, ⟨hd, ?_, fun h0 => ?_⟩, hstop, hf, he, rfl⟩
          · intro hne
            simp [hne] at hcond
          · exact (by simpa [h0] using hcond : ¬ds = [] ∧ ds.length = 1).2

theorem stopsAt_append {p : UInt8 → Bool} {bs q : List UInt8} (hb : ∀ b tail, bs = b :: tail → p b = false)
    (hq : bs = [] → StopsAt p q) : StopsAt p (bs ++ q) := by
  cases bs with
  | nil => exact hq rfl
  | cons b tail =>
    intro c hc
    obtain rfl : b = c := by simpa using hc
    exact hb b tail rfl

theorem StopsAt.mono {p p' : UInt8 → Bool} {bs : List UInt8} (h : StopsAt p bs) (hp : ∀ b, p' b = true → p b = true) :
    StopsAt p' bs := by
  intro b hb
  have := mt (hp b)
  simp only [Bool.not_eq_true] at this
  exact this (h b hb)

theorem isDigit_of_isExponentMark {b : UInt8} (h : isExponentMark b = true) : isDigit b = false ∧ (b == 0x2E) = false := by
  simp only [isExponentMark, Bool.or_eq_true, beq_iff_eq] at h
  rcases h with rfl | rfl <;> decide

/-- A numeral looks no further than its last digit where nothing follows that could be a part of it. -/
theorem unsignedNumeral_local {bs rest : List UInt8} {negative : Bool} {x : Numeral}
    (h : unsignedNumeral negative bs = some (x, rest)) :
    ∃ used, bs = used ++ rest ∧ EndsInDigit used ∧ (∃ b tail, used = b :: tail ∧ isDigit b = true) ∧
      ∀ q, StopsAt goesOn q → unsignedNumeral negative (used ++ q) = some (x, q) := by
  obtain ⟨ds, _, f, _, e, rfl, hw, hstop, hf, he, rfl⟩ := of_unsignedNumeral h
  obtain ⟨uf, rfl, hpoint, hfd, hfq⟩ := readsPart_fraction _ _ _ hf
  obtain ⟨ue, rfl, hmark, hed, heq⟩ := readsPart_exponent _ _ _ he
  refine ⟨ds ++ (uf ++ ue), by simp, ?_, ?_, fun q hq => ?_⟩
  · rcases hed with rfl | ⟨init, d, rfl, hd⟩
    · rcases hfd with rfl | ⟨init, d, rfl, hd⟩
      · simpa using endsInDigit_of_all [] hw.1 hw.2.1
      · exact ⟨ds ++ init, d, by simp, hd⟩
    · exact ⟨ds ++ uf ++ init, d, by simp, hd⟩
  · obtain ⟨hd, hne, -⟩ := hw
    cases ds with
    | nil => exact absurd rfl hne
    | cons d ds => exact ⟨d, ds ++ (uf ++ ue), rfl, List.all_eq_true.1 hd d (by simp)⟩
  · have hqd : StopsAt isDigit q := hq.mono fun b hb => by simp [goesOn, hb]
    have hqp : StopsAt (· == 0x2E) q := hq.mono fun b hb => by simp only [goesOn, hb, Bool.or_true, Bool.true_or]
    have hqm : StopsAt isExponentMark q := hq.mono fun b hb => by
      rcases Bool.or_eq_true_iff.1 hb with h | h <;> simp only [goesOn, h, Bool.or_true, Bool.true_or]
    have h1 : StopsAt isDigit (ue ++ q) :=
      stopsAt_append (fun b tail h => (isDigit_of_isExponentMark (hmark b tail h)).1) fun _ => hqd
    have h2 : StopsAt (· == 0x2E) (ue ++ q) :=
      stopsAt_append (fun b tail h => (isDigit_of_isExponentMark (hmark b tail h)).2) fun _ => hqp
    have h3 : StopsAt isDigit (uf ++ (ue ++ q)) :=
      stopsAt_append (fun b tail h => by rw [beq_iff_eq.1 (hpoint b tail h)]; decide) fun _ => h1
    rw [List.append_assoc, List.append_assoc]
    exact unsignedNumeral_append hw h3 (hfq _ h1 fun _ => h2) (heq q hqd fun _ => hqm)


theorem EndsInDigit.solid {bs : List UInt8} : EndsInDigit bs → Solid bs
  | ⟨init, d, h, hd⟩ => ⟨init, d, h, by
    have hd' : 0x30 ≤ d ∧ d ≤ 0x39 := by simpa [isDigit] using hd
    have hne : ∀ c : UInt8, c < 0x30 → (d == c) = false := fun c hc => by
      simpa using fun h : d = c => absurd hd'.1 (by subst h; simpa using hc)
    simp [isSpace, hne]⟩

theorem looksNoFurther_numeral : LooksNoFurther numeral (StopsAt goesOn) := by
  intro bs x rest h
  by_cases hs : StopsAt (· == 0x2D) bs
  · rw [numeral_of_stopsAt hs] at h
    obtain ⟨used, rfl, hd, ⟨b, tail, rfl, hb⟩, hq⟩ := unsignedNumeral_local h
    refine ⟨_, rfl, hd.solid, fun q hq' => ?_⟩
    rw [numeral_of_stopsAt (show StopsAt (· == 0x2D) (b :: tail ++ q) from fun c hc => hs c hc), hq q hq']
  · obtain ⟨tail, rfl⟩ : ∃ tail, bs = 0x2D :: tail := by
      cases bs with
      | nil => exact absurd (fun b hb => by cases hb) hs
      | cons b tail => exact ⟨tail, by simpa [StopsAt] using hs⟩
    rw [numeral_minus] at h
    obtain ⟨used, rfl, hd, -, hq⟩ := unsignedNumeral_local h
    exact ⟨0x2D :: used, rfl, hd.solid.append [0x2D], fun q hq' => hq q hq'⟩

theorem looksNoFurther_number : LooksNoFurther number (StopsAt goesOn) := by
  intro bs n rest h
  unfold number at h
  split at h
  · cases h
  · rename_i x rest' hx
    obtain ⟨n', hn, heq⟩ := Option.map_eq_some_iff.1 h
    obtain ⟨rfl, rfl⟩ : n' = n ∧ rest' = rest := by simpa using heq
    obtain ⟨used, rfl, hs, hq⟩ := looksNoFurther_numeral _ _ _ hx
    refine ⟨used, rfl, hs, fun q hq' => ?_⟩
    simp [number, hq q hq', hn]

/-! ## Scalars and names -/

theorem LooksNoFurther.map {α β : Type} {read : List UInt8 → Option (α × List UInt8)} {Ok : List UInt8 → Prop}
    (h : LooksNoFurther read Ok) (f : α → β) {bs rest : List UInt8} {b : β}
    (hb : (read bs).map (fun (a, r) => (f a, r)) = some (b, rest)) :
    ∃ used, bs = used ++ rest ∧ Solid used ∧
      ∀ q, Ok q → (read (used ++ q)).map (fun (a, r) => (f a, r)) = some (b, q) := by
  obtain ⟨⟨a, r⟩, ha, heq⟩ := Option.map_eq_some_iff.1 hb
  obtain ⟨rfl, rfl⟩ : f a = b ∧ r = rest := by simpa using heq
  obtain ⟨used, hbs, hs, hq⟩ := h _ _ _ ha
  exact ⟨used, hbs, hs, fun q hok => by rw [hq q hok]; rfl⟩

theorem looksNoFurther_word {α : Type} {word : List UInt8} (hw : Solid word) (a : α) {bs rest : List UInt8} {v : α}
    (h : (after? word bs).map (a, ·) = some (v, rest)) :
    ∃ used, bs = used ++ rest ∧ Solid used ∧ ∀ q, (after? word (used ++ q)).map (a, ·) = some (v, q) := by
  obtain ⟨r, hr, heq⟩ := Option.map_eq_some_iff.1 h
  obtain ⟨rfl, rfl⟩ : a = v ∧ r = rest := by simpa using heq
  exact ⟨word, after?_eq_some_iff.1 hr, hw, fun q => by rw [after?_eq_some_iff.2 rfl]; rfl⟩

theorem scalar_string (rest : List UInt8) : scalar (0x22 :: rest) = (string rest).map fun (s, r) => (.string s, r) :=
  rfl

theorem scalar_null (rest : List UInt8) : scalar (0x6E :: rest) = (after? [0x75, 0x6C, 0x6C] rest).map (.null, ·) :=
  rfl

theorem scalar_true (rest : List UInt8) :
    scalar (0x74 :: rest) = (after? [0x72, 0x75, 0x65] rest).map (.bool true, ·) :=
  rfl

theorem scalar_false (rest : List UInt8) :
    scalar (0x66 :: rest) = (after? [0x61, 0x6C, 0x73, 0x65] rest).map (.bool false, ·) :=
  rfl

theorem scalar_number {b : UInt8} (rest : List UInt8) (hb : b = 0x2D ∨ isDigit b) :
    scalar (b :: rest) = (number (b :: rest)).map fun (n, r) => (.number n, r) := by
  have hne : b ≠ 0x22 := by rintro rfl; revert hb; decide
  simp [scalar, hne, hb]

/-- What a value without parts begins with. -/
theorem scalar_cases {bs rest : List UInt8} {v : Value} (h : scalar bs = some (v, rest)) :
    ∃ b tail, bs = b :: tail ∧
      (b = 0x22 ∨ (b = 0x2D ∨ isDigit b) ∨ b = 0x6E ∨ b = 0x74 ∨ b = 0x66) := by
  unfold scalar at h
  split at h
  · cases h
  · rename_i b tail
    refine ⟨b, tail, rfl, ?_⟩
    by_cases h1 : b = 0x22
    · exact .inl h1
    by_cases h2 : b = 0x2D ∨ isDigit b
    · exact .inr (.inl h2)
    by_cases h3 : b = 0x6E
    · exact .inr (.inr (.inl h3))
    by_cases h4 : b = 0x74
    · exact .inr (.inr (.inr (.inl h4)))
    by_cases h5 : b = 0x66
    · exact .inr (.inr (.inr (.inr h5)))
    rw [if_neg h1, if_neg h2, if_neg h3, if_neg h4, if_neg h5] at h
    cases h

theorem looksNoFurther_scalar : LooksNoFurther scalar (StopsAt goesOn) := by
  intro bs v rest h
  obtain ⟨b, tail, rfl, rfl | hb | rfl | rfl | rfl⟩ := scalar_cases h
  · rw [scalar_string] at h
    obtain ⟨used, rfl, hs, hq⟩ := looksNoFurther_string.map _ h
    exact ⟨0x22 :: used, rfl, hs.append [0x22], fun q _ => hq q trivial⟩
  · rw [scalar_number tail hb] at h
    obtain ⟨used, hbs, hs, hq⟩ := looksNoFurther_number.map _ h
    obtain ⟨used, rfl⟩ := hs.eq_cons hbs
    exact ⟨_, hbs, hs, fun q hok => (scalar_number (used ++ q) hb).trans (hq q hok)⟩
  · obtain ⟨used, rfl, hs, hq⟩ := looksNoFurther_word ⟨[0x75, 0x6C], 0x6C, rfl, by decide⟩ _ (scalar_null tail ▸ h)
    exact ⟨0x6E :: used, rfl, hs.append [0x6E], fun q _ => hq q⟩
  · obtain ⟨used, rfl, hs, hq⟩ := looksNoFurther_word ⟨[0x72, 0x75], 0x65, rfl, by decide⟩ _ (scalar_true tail ▸ h)
    exact ⟨0x74 :: used, rfl, hs.append [0x74], fun q _ => hq q⟩
  · obtain ⟨used, rfl, hs, hq⟩ :=
      looksNoFurther_word ⟨[0x61, 0x6C, 0x73], 0x65, rfl, by decide⟩ _ (scalar_false tail ▸ h)
    exact ⟨0x66 :: used, rfl, hs.append [0x66], fun q _ => hq q⟩

theorem fieldName_eq_some_iff {bs rest : List UInt8} {name : String} :
    fieldName bs = some (name, rest) ↔
      ∃ r r', skipSpace bs = 0x22 :: r ∧ string r = some (name, r') ∧ skipSpace r' = 0x3A :: rest := by
  constructor
  · intro h
    unfold fieldName at h
    split at h
    · rename_i r hr
      split at h
      · cases h
      · rename_i name' r' hs
        split at h
        · rename_i rest' hrest
          obtain ⟨rfl, rfl⟩ : name' = name ∧ rest' = rest := by simpa using h
          exact ⟨r, r', hr, hs, hrest⟩
        · cases h
    · cases h
  · rintro ⟨r, r', hr, hs, hrest⟩
    simp [fieldName, hr, hs, hrest]

theorem looksNoFurther_fieldName : LooksNoFurther fieldName fun _ => True := by
  intro bs name rest h
  obtain ⟨r, r', hr, hs, hrest⟩ := fieldName_eq_some_iff.1 h
  obtain ⟨sp, hsp, hb, rfl⟩ := eq_spaces_cons hr
  obtain ⟨used, rfl, -, hq⟩ := looksNoFurther_string _ _ _ hs
  obtain ⟨sp', hsp', hb', rfl⟩ := eq_spaces_cons hrest
  refine ⟨sp ++ 0x22 :: (used ++ (sp' ++ [0x3A])), by simp, ?_, fun q _ => ?_⟩
  · exact ⟨sp ++ 0x22 :: (used ++ sp'), 0x3A, by simp, hb'⟩
  · refine fieldName_eq_some_iff.2 ⟨used ++ (sp' ++ 0x3A :: q), sp' ++ 0x3A :: q, ?_, hq _ trivial, ?_⟩
    · simpa using skipSpace_spaces_cons hsp hb (used ++ (sp' ++ 0x3A :: q))
    · exact skipSpace_spaces_cons hsp' hb' q

end Reader
end Json
end SearchTelemetry
