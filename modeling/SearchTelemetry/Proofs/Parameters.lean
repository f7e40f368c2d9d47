import Mathlib.Data.List.Find
import Mathlib.Logic.Relation
import SearchTelemetry.Command
/-!
# Parameters — the spelling of a parameter makes no difference

A command is decoded from its body and from the parameters of its endpoint alone (`decode_congr`).  Of a parameter the first
header with underscores counts, and where there is none the first one with hyphens (`parameter?_eq_some_iff`).  Headers in
which no parameter comes in both spellings can therefore be spelled in another way, in any letter case, and have any other
headers among them (`Restyled`): the same command is decoded from them, or the same fault comes of it (`decode_restyled`).
-/
namespace SearchTelemetry

/-- The parameters that are read for an endpoint. -/
def Endpoint.parameterNames : Endpoint → List String
  | getAutofill => [partialQueryName, numSuggestionsName]
  | getQueryData => [queryIdName]
  | reportMetrics => [componentName]
  | getQueryId | reportSearchResults | submitFeedback => []

namespace Headers

/-! ## One parameter -/

/-- A name is that of a parameter, with underscores or with hyphens, in any letter case. -/
def Spells (p name : String) : Prop :=
  lower name = lower p ∨ lower name = lower (hyphenated p)

instance (p name : String) : Decidable (Spells p name) :=
  inferInstanceAs (Decidable (_ ∨ _))

/-- A name is that of a parameter with hyphens where it has underscores. -/
def IsHyphened (p name : String) : Prop :=
  lower name = lower (hyphenated p) ∧ lower name ≠ lower p

instance (p name : String) : Decidable (IsHyphened p name) :=
  inferInstanceAs (Decidable (_ ∧ _))

/-- A parameter comes in both spellings. -/
def IsMixed (p : String) (headers : Headers) : Prop :=
  (∃ h ∈ headers, lower h.1 = lower p) ∧ ∃ h ∈ headers, IsHyphened p h.1

/-- The value that counts for a parameter. -/
inductive Counts (p : String) : Headers → List UInt8 → Prop where
  /-- The first with underscores. -/
  | underscored {front behind : Headers} {name : String} {v : List UInt8} (hname : lower name = lower p)
      (hfront : ∀ h ∈ front, lower h.1 ≠ lower p) : Counts p (front ++ (name, v) :: behind) v
  /-- The first with hyphens, where there is none with underscores. -/
  | hyphened {front behind : Headers} {name : String} {v : List UInt8} (hname : IsHyphened p name)
      (hfront : ∀ h ∈ front, ¬Spells p h.1) (hbehind : ∀ h ∈ behind, lower h.1 ≠ lower p) :
      Counts p (front ++ (name, v) :: behind) v

variable {p q : String} {headers headers' : Headers}

theorem first?_eq_some_iff {name : String} {v : List UInt8} : headers.first? name = some v ↔
    ∃ front n behind, headers = front ++ (n, v) :: behind ∧ lower n = lower name ∧ ∀ h ∈ front, lower h.1 ≠ lower name := by
  simp only [first?, Option.map_eq_some_iff, List.find?_eq_some_iff_append, beq_iff_eq, Bool.not_eq_true',
    beq_eq_false_iff_ne]
  constructor
  · rintro ⟨⟨n, v⟩, ⟨hn, front, behind, heq, hfront⟩, rfl⟩
    exact ⟨front, n, behind, heq, hn, hfront⟩
  · rintro ⟨front, n, behind, heq, hn, hfront⟩
    exact ⟨(n, v), ⟨hn, front, behind, heq, hfront⟩, rfl⟩

theorem first?_eq_none_iff {name : String} : headers.first? name = none ↔ ∀ h ∈ headers, lower h.1 ≠ lower name := by
  simp [first?]

theorem counts_iff {v : List UInt8} : Counts p headers v ↔
    headers.first? p = some v ∨ headers.first? p = none ∧ headers.first? (hyphenated p) = some v := by
  rw [first?_eq_some_iff, first?_eq_none_iff, first?_eq_some_iff]
  constructor
  · rintro (⟨hname, hfront⟩ | ⟨hname, hfront, hbehind⟩)
    · exact .inl ⟨_, _, _, rfl, hname, hfront⟩
    · have hfront' := fun h hh => not_or.1 (hfront h hh)
      refine .inr ⟨?_, _, _, _, rfl, hname.1, fun h hh => (hfront' h hh).2⟩
      exact List.forall_mem_append.2 ⟨fun h hh => (hfront' h hh).1, List.forall_mem_cons.2 ⟨hname.2, hbehind⟩⟩
  · rintro (⟨front, n, behind, rfl, hn, hfront⟩ | ⟨hnone, front, n, behind, rfl, hn, hfront⟩)
    · exact .underscored hn hfront
    · obtain ⟨hfront', hbehind⟩ := List.forall_mem_append.1 hnone
      obtain ⟨hn', hbehind⟩ := List.forall_mem_cons.1 hbehind
      exact .hyphened ⟨hn, hn'⟩ (fun h hh => not_or.2 ⟨hfront' h hh, hfront h hh⟩) hbehind

/-- **Of a parameter the first header with underscores counts, and else the first one with hyphens.** -/
theorem parameter?_eq_some_iff {s : String} :
    headers.parameter? p = some s ↔ ∃ v, Counts p headers v ∧ Utf8.lossy v = s := by
  simp only [counts_iff]
  cases h : headers.first? p with
  | some v => simp [parameter?, h]
  | none => simp [parameter?, h]

/-- The values of a parameter under either spelling, in order. -/
def values (p : String) (headers : Headers) : List (List UInt8) :=
  (headers.filter fun h => Spells p h.1).map (·.2)

/-- Where a parameter comes in one spelling only, the first of all its values counts. -/
theorem parameter?_of_not_isMixed (h : ¬IsMixed p headers) :
    headers.parameter? p = (values p headers).head?.map Utf8.lossy := by
  have hfirst : ∀ name : String, (∀ h ∈ headers, Spells p h.1 ↔ lower h.1 = lower name) →
      (values p headers).head? = headers.first? name := by
    intro name hname
    rw [values, List.head?_map, List.head?_filter, first?]
    exact congrArg _ (List.find?_congr fun h hh => Bool.eq_iff_iff.2 (by simpa using hname h hh))
  cases hp : headers.first? p with
  | some v =>
    obtain ⟨front, n, behind, heq, hn, -⟩ := first?_eq_some_iff.1 hp
    have hmem : (n, v) ∈ headers := by simp [heq]
    rw [hfirst p, parameter?, hp]
    · rfl
    · refine fun h' hh => ⟨?_, .inl⟩
      rintro (hh' | hh')
      · exact hh'
      · exact Decidable.byContradiction fun hne => h ⟨⟨_, hmem, hn⟩, h', hh, hh', hne⟩
  | none =>
    have hnone := first?_eq_none_iff.1 hp
    rw [hfirst (hyphenated p), parameter?, hp]
    exact fun h' hh => ⟨fun hh' => hh'.resolve_left (hnone h' hh), .inr⟩

/-! ## Other headers, other spellings -/

/-- No parameter of an endpoint comes in both spellings. -/
def Unmixed (e : Endpoint) (headers : Headers) : Prop :=
  ∀ p ∈ e.parameterNames, ¬IsMixed p headers

/-- One change to headers of which an endpoint takes no notice. -/
inductive Restyles (e : Endpoint) : Headers → Headers → Prop where
  /-- The name of a parameter in another spelling. -/
  | respelled (front behind : Headers) {p name name' : String} (hp : p ∈ e.parameterNames) (hname : Spells p name)
      (hname' : Spells p name') (v : List UInt8) :
      Restyles e (front ++ (name, v) :: behind) (front ++ (name', v) :: behind)
  /-- The letter case of any name. -/
  | recased (front behind : Headers) {name name' : String} (hname : lower name = lower name') (v : List UInt8) :
      Restyles e (front ++ (name, v) :: behind) (front ++ (name', v) :: behind)
  /-- A header that is no parameter of the endpoint. -/
  | other (front behind : Headers) {name : String} (hname : ∀ p ∈ e.parameterNames, ¬Spells p name) (v : List UInt8) :
      Restyles e (front ++ behind) (front ++ (name, v) :: behind)

/-- Any number of such changes, made or taken back: other headers are added, left out and so moved about. -/
def Restyled (e : Endpoint) : Headers → Headers → Prop :=
  Relation.EqvGen (Restyles e)

/-- No name is that of two parameters of an endpoint. -/
theorem Spells.unique {e : Endpoint} (hp : p ∈ e.parameterNames) (hq : q ∈ e.parameterNames) {name : String}
    (h : Spells p name) (h' : Spells q name) : p = q := by
  have hnames : ∀ p ∈ e.parameterNames, ∀ q ∈ e.parameterNames,
      Spells q p ∨ Spells q (hyphenated p) → p = q := by
    cases e <;> decide +kernel
  refine hnames p hp q hq ?_
  rcases h with h | h
  · left
    rwa [Spells, h] at h'
  · right
    rwa [Spells, h] at h'

theorem values_append (front behind : Headers) : values p (front ++ behind) = values p front ++ values p behind := by
  simp [values]

theorem values_cons (name : String) (v : List UInt8) (behind : Headers) :
    values p ((name, v) :: behind) = (if Spells p name then [v] else []) ++ values p behind := by
  by_cases h : Spells p name <;> simp [values, h]

theorem Restyles.values_eq {e : Endpoint} (h : Restyles e headers headers') (hp : p ∈ e.parameterNames) :
    values p headers = values p headers' := by
  cases h with
  | @respelled front behind q name name' hq hname hname' v =>
    have hspells : Spells p name ↔ Spells p name' :=
      ⟨fun h => h.unique hp hq hname ▸ hname', fun h => h.unique hp hq hname' ▸ hname⟩
    simp only [values_append, values_cons, hspells]
  | @recased front behind name name' hname v =>
    have hspells : Spells p name ↔ Spells p name' := by rw [Spells, Spells, hname]
    simp only [values_append, values_cons, hspells]
  | other front behind hname v => simp [values_append, values_cons, hname p hp]

theorem Restyled.values_eq {e : Endpoint} (h : Restyled e headers headers') (hp : p ∈ e.parameterNames) :
    values p headers = values p headers' := by
  induction h with
  | rel _ _ h => exact h.values_eq hp
  | refl _ => rfl
  | symm _ _ _ ih => exact ih.symm
  | trans _ _ _ _ _ ih ih' => exact ih.trans ih'

/-- A header under another name of a parameter, if it is one of that parameter. -/
def respell (p name : String) (h : String × List UInt8) : String × List UInt8 :=
  if Spells p h.1 then (name, h.2) else h

/-- Headers with every one of a parameter under one name. -/
def respelled (p name : String) (headers : Headers) : Headers :=
  headers.map (respell p name)

theorem values_respelled {e : Endpoint} (hp : p ∈ e.parameterNames) (hq : q ∈ e.parameterNames) {name : String}
    (hname : Spells p name) (headers : Headers) : values q (respelled p name headers) = values q headers := by
  induction headers with
  | nil => rfl
  | cons h headers ih =>
    obtain ⟨n, v⟩ := h
    rw [respelled] at ih
    by_cases hn : Spells p n
    · have hspells : Spells q name ↔ Spells q n :=
        ⟨fun h => h.unique hq hp hname ▸ hn, fun h => h.unique hq hp hn ▸ hname⟩
      rw [respelled, List.map_cons, respell, if_pos hn, values_cons, values_cons, ih]
      simp only [hspells]
    · rw [respelled, List.map_cons, respell, if_neg hn, values_cons, values_cons, ih]

theorem respell_of_spells {name : String} {h : String × List UInt8} (hs : Spells p (respell p name h).1) :
    (respell p name h).1 = name := by
  unfold respell at hs ⊢
  split
  · rfl
  · rename_i hn
    rw [if_neg hn] at hs
    exact absurd hs hn

theorem respell_of_other {e : Endpoint} (hp : p ∈ e.parameterNames) (hq : q ∈ e.parameterNames) (hpq : p ≠ q)
    {name : String} (hname : Spells p name) {h : String × List UInt8} (hs : Spells q (respell p name h).1) :
    respell p name h = h := by
  unfold respell at hs ⊢
  split
  · rename_i hn
    rw [if_pos hn] at hs
    exact absurd (Spells.unique hp hq hname hs) hpq
  · rfl

theorem Unmixed.respelled {e : Endpoint} (h : headers.Unmixed e) (hp : p ∈ e.parameterNames) {name : String}
    (hname : Spells p name) : (headers.respelled p name).Unmixed e := by
  rintro q hq ⟨⟨a, ha, hunderscored⟩, b, hb, hhyphened⟩
  obtain ⟨a, hmem, rfl⟩ := List.mem_map.1 ha
  obtain ⟨b, hmem', rfl⟩ := List.mem_map.1 hb
  by_cases hpq : p = q
  · subst hpq
    -- both headers have the one name by now, which cannot be with underscores and with hyphens
    rw [respell_of_spells (.inl hunderscored)] at hunderscored
    rw [respell_of_spells (.inr hhyphened.1)] at hhyphened
    exact hhyphened.2 hunderscored
  · -- both headers stand as before
    rw [respell_of_other hp hq hpq hname (.inl hunderscored)] at hunderscored
    rw [respell_of_other hp hq hpq hname (.inr hhyphened.1)] at hhyphened
    exact h q hq ⟨⟨a, hmem, hunderscored⟩, b, hmem', hhyphened⟩

theorem first?_repeated {name name' : String} (hname : lower name = lower name') (front between behind : Headers)
    (v v' : List UInt8) (q : String) :
    first? (front ++ (name, v) :: between ++ (name', v') :: behind) q = first? (front ++ (name, v) :: between ++ behind) q := by
  by_cases hq : lower name' = lower q <;> simp [first?, List.find?_append, hname, hq]

theorem first?_filter {keep : String × List UInt8 → Bool} {name : String}
    (h : ∀ h : String × List UInt8, lower h.1 = lower name → keep h = true) :
    first? (headers.filter keep) name = first? headers name := by
  rw [first?, first?, List.find?_filter]
  exact congrArg _ (List.find?_congr fun a _ => by
    by_cases ha : lower a.1 = lower name <;> simp [ha, h])

end Headers

namespace Command

open Headers

variable {e : Endpoint} {method : String} {headers headers' : Headers} {body : List UInt8}

/-- **Of all headers only the parameters of the endpoint count.** -/
theorem decode_congr (h : ∀ p ∈ e.parameterNames, headers.parameter? p = headers'.parameter? p) :
    decode e method headers body = decode e method headers' body := by
  unfold decode
  cases e with
  | getQueryId | reportSearchResults | submitFeedback => rfl
  | getAutofill =>
    have hquery := h partialQueryName (by decide)
    have hcount := h numSuggestionsName (by decide)
    simp only [hquery, hcount]
  | getQueryData =>
    have hid := h queryIdName (by decide)
    simp only [hid]
  | reportMetrics =>
    have hcomponent := h componentName (by decide)
    simp only [hcomponent]

theorem parameter?_repeated {name name' : String} (hname : lower name = lower name') (front between behind : Headers)
    (v v' : List UInt8) (q : String) :
    parameter? (front ++ (name, v) :: between ++ (name', v') :: behind) q =
      parameter? (front ++ (name, v) :: between ++ behind) q := by
  rw [parameter?, parameter?, first?_repeated hname, first?_repeated hname]

/-- Where a parameter comes with underscores, the headers with hyphens do not count, neither for it nor for another one. -/
theorem parameter?_filter_isHyphened {p q : String} (hp : p ∈ e.parameterNames) (hq : q ∈ e.parameterNames)
    (h : ∃ h ∈ headers, lower h.1 = lower p) :
    parameter? (headers.filter fun h => !decide (IsHyphened p h.1)) q = headers.parameter? q := by
  have hkeep : ∀ name : String, (∀ n : String, lower n = lower name → ¬IsHyphened p n) →
      first? (headers.filter fun h => !decide (IsHyphened p h.1)) name = headers.first? name :=
    fun name hname => first?_filter fun a ha => by simpa using hname a.1 ha
  by_cases hpq : p = q
  · subst hpq
    have hsome : headers.first? p ≠ none := fun hnone => by
      obtain ⟨a, ha, hname⟩ := h
      exact first?_eq_none_iff.1 hnone a ha hname
    obtain ⟨v, hv⟩ := Option.ne_none_iff_exists'.1 hsome
    rw [parameter?, parameter?, hkeep p fun n hn hh => hh.2 hn, hv]
  · have hother : ∀ n : String, Spells q n → ¬IsHyphened p n := fun n hn hh =>
      hpq (Spells.unique hp hq (.inr hh.1) hn)
    rw [parameter?, parameter?, hkeep q fun n hn => hother n (.inl hn), hkeep (hyphenated q) fun n hn => hother n (.inr hn)]

/-- **Both spellings of a parameter mean the same.**  Headers in which no parameter comes in both are decoded alike, be it to a
command or to a fault, however the parameters and the case of any name are spelled and whatever other headers are among them;
and they stay such headers when all those of a parameter get another of its names.  A header does not count behind one of its
name, nor a spelling with hyphens beside one with underscores; the value of a parameter is the text of the header that does
count. -/
theorem decode_restyled (e : Endpoint) (method : String) (body : List UInt8) :
    (∀ headers headers' : Headers, headers.Unmixed e → headers'.Unmixed e → Restyled e headers headers' →
      decode e method headers body = decode e method headers' body) ∧
    (∀ headers : Headers, headers.Unmixed e → ∀ p ∈ e.parameterNames, ∀ name, Spells p name →
      (headers.respelled p name).Unmixed e ∧
        decode e method (headers.respelled p name) body = decode e method headers body) ∧
    (∀ (front between behind : Headers) (name name' : String) (v v' : List UInt8), lower name = lower name' →
      decode e method (front ++ (name, v) :: between ++ (name', v') :: behind) body =
        decode e method (front ++ (name, v) :: between ++ behind) body) ∧
    (∀ headers : Headers, ∀ p ∈ e.parameterNames, (∃ h ∈ headers, lower h.1 = lower p) →
      decode e method (headers.filter fun h => !decide (IsHyphened p h.1)) body = decode e method headers body) ∧
    ∀ (headers : Headers) (p s : String),
      headers.parameter? p = some s ↔ ∃ v, Counts p headers v ∧ Utf8.lossy v = s := by
  refine ⟨fun headers headers' hu hu' h => ?_, fun headers hu p hp name hname => ⟨hu.respelled hp hname, ?_⟩,
    fun front between behind name name' v v' hname => ?_, fun headers p hp h => ?_,
    fun headers p s => parameter?_eq_some_iff⟩
  · refine decode_congr fun p hp => ?_
    rw [parameter?_of_not_isMixed (hu p hp), parameter?_of_not_isMixed (hu' p hp), h.values_eq hp]
  · refine decode_congr fun q hq => ?_
    rw [parameter?_of_not_isMixed (hu.respelled hp hname q hq), parameter?_of_not_isMixed (hu q hq),
      values_respelled hp hq hname]
  · exact decode_congr fun p _ => parameter?_repeated hname front between behind v v' p
  · exact decode_congr fun q hq => parameter?_filter_isHyphened hp hq h

/-- A count and a partial query with hyphens; the same in other letters, the count with underscores, behind a header that is no
parameter; the count alone with underscores; and a second partial query, first with hyphens behind the first one, then with
underscores. -/
theorem decode_restyled_autofill :
    let count : String × List UInt8 := ("num-suggestions", Utf8.bytes "3")
    let query : String × List UInt8 := ("Partial-Query", Utf8.bytes "rust")
    let restyled : Headers :=
      [("host", Utf8.bytes "h"), ("NUM_SUGGESTIONS", Utf8.bytes "3"), ("partial-query", Utf8.bytes "rust")]
    let decoded (headers : Headers) := decode .getAutofill "GET" headers []
    Unmixed .getAutofill [count, query] ∧ Unmixed .getAutofill restyled ∧ Restyled .getAutofill [count, query] restyled ∧
      decoded [count, query] = decoded restyled ∧
      decoded [("num_suggestions", Utf8.bytes "3"), query] = decoded [count, query] ∧
      decoded [count, query, ("partial-query", Utf8.bytes "go")] = decoded [count, query] ∧
      decoded [count, ("partial_query", Utf8.bytes "go")] = decoded [count, query, ("partial_query", Utf8.bytes "go")] ∧
      parameter? [count, query] partialQueryName = some "rust" := by
  intro count query restyled decoded
  have hunmixed : Unmixed .getAutofill [count, query] ∧ Unmixed .getAutofill restyled := by
    unfold Unmixed IsMixed
    decide +kernel
  have hrestyled : Restyled .getAutofill [count, query] restyled := by
    have hcount : Restyles .getAutofill [count, query] [("NUM_SUGGESTIONS", Utf8.bytes "3"), query] :=
      .respelled [] [query] (by decide : numSuggestionsName ∈ _) (by decide +kernel) (by decide +kernel) _
    have hquery : Restyles .getAutofill [("NUM_SUGGESTIONS", Utf8.bytes "3"), query] restyled.tail :=
      .recased [("NUM_SUGGESTIONS", Utf8.bytes "3")] [] (by decide +kernel) _
    have hhost : Restyles .getAutofill restyled.tail restyled := .other [] restyled.tail (by decide +kernel) _
    exact .trans _ _ _ (.rel _ _ hcount) (.trans _ _ _ (.rel _ _ hquery) (.rel _ _ hhost))
  have hfilter : [count, query, ("partial_query", Utf8.bytes "go")].filter
      (fun h => !decide (IsHyphened partialQueryName h.1)) = [count, ("partial_query", Utf8.bytes "go")] := by
    decide +kernel
  have hcounts : Counts partialQueryName ([count] ++ query :: []) (Utf8.bytes "rust") :=
    .hyphened (by decide +kernel) (by decide +kernel) (by simp)
  have hrespelled : respelled numSuggestionsName "num_suggestions" [count, query] =
      [("num_suggestions", Utf8.bytes "3"), query] := by
    decide +kernel
  obtain ⟨hsame, hwhole, hfirst, halone, hvalue⟩ := decode_restyled .getAutofill "GET" []
  have hunderscored := (hwhole _ hunmixed.1 numSuggestionsName (by decide) "num_suggestions" (by decide +kernel)).2
  rw [hrespelled] at hunderscored
  refine ⟨hunmixed.1, hunmixed.2, hrestyled, hsame _ _ hunmixed.1 hunmixed.2 hrestyled, hunderscored,
    hfirst [count] [] [] "Partial-Query" "partial-query" _ _ (by decide +kernel), ?_,
    (hvalue _ _ _).2 ⟨_, hcounts, by decide +kernel⟩⟩
  have hmixed := halone [count, query, ("partial_query", Utf8.bytes "go")] partialQueryName (by decide)
    ⟨_, List.mem_cons_of_mem _ (List.mem_cons_of_mem _ List.mem_cons_self), by decide +kernel⟩
  rwa [hfilter] at hmixed

end Command
end SearchTelemetry
