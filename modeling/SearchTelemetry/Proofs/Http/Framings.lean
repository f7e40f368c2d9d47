import Mathlib.Data.List.Forall2
import SearchTelemetry.Proofs.Http.Heads
import SearchTelemetry.Proofs.Outcomes
/-!
# Http.Framings — two kinds of header settle where a body ends

The last transfer coding that is named counts before all content lengths, and those count only if they agree.  Which of the
framings comes of a list of headers, or none, is said here for each by a condition on the values of these two kinds alone
(`Framing.Decides`); so the case of names, other headers, and the order and number of the content lengths have no effect
(`Framing.Stable`).
-/
namespace SearchTelemetry
namespace Http

/-! ## The last transfer coding -/

/-- What stands behind the last comma of a text, or all of it. -/
def IsLastPart (part cs : List Char) : Prop :=
  ',' ∉ part ∧ (cs = part ∨ ∃ front, cs = front ++ ',' :: part)

theorem exists_isLastPart (cs : List Char) : ∃ part, IsLastPart part cs := by
  induction cs with
  | nil => exact ⟨[], by simp, .inl rfl⟩
  | cons c cs ih =>
    obtain ⟨part, hpart, rfl | ⟨front, rfl⟩⟩ := ih
    · by_cases hc : c = ','
      · exact ⟨cs, hpart, .inr ⟨[], by rw [hc]; rfl⟩⟩
      · exact ⟨c :: cs, by simpa [hpart] using fun heq => hc heq.symm, .inl rfl⟩
    · exact ⟨part, hpart, .inr ⟨c :: front, rfl⟩⟩

theorem Header.getLast?_splitComma {part cs : List Char} : (splitComma cs).getLast? = some part ↔ IsLastPart part cs := by
  have hlast : ∀ {part}, IsLastPart part cs → (splitComma cs).getLast? = some part := by
    rintro part ⟨hpart, rfl | ⟨front, rfl⟩⟩
    · rw [splitComma_of_not_mem _ hpart]
      rfl
    · rw [splitComma_append, splitComma_of_not_mem _ hpart, List.getLast?_concat]
  constructor
  · intro h
    obtain ⟨part', hpart'⟩ := exists_isLastPart cs
    obtain rfl := Option.some.inj (h.symm.trans (hlast hpart'))
    exact hpart'
  · exact hlast

theorem Header.getLast?_elements (headers : List Header) (name : String) :
    (elements headers name).getLast? = (values headers name).getLast?.bind fun v =>
      (splitComma v.toList).getLast?.map fun part => String.ofList (Blank.trim part) := by
  unfold elements
  rcases List.eq_nil_or_concat (values headers name) with heq | ⟨vs, v, heq⟩
  · rw [heq]
    rfl
  · obtain ⟨part, hpart⟩ := exists_isLastPart v.toList
    rw [heq, List.concat_eq_append, List.flatMap_append, List.getLast?_append, List.flatMap_singleton, List.getLast?_map,
      List.getLast?_concat, Option.bind_some, Header.getLast?_splitComma.2 hpart]
    rfl

namespace Framing

variable {headers headers' : List Header} {known : Option Nat} {vs : List String} {n : Nat} {absent : Framing}

/-- The last of all transfer codings is the chunked one. -/
def NamesChunked (headers : List Header) : Prop :=
  ∃ v part, (Header.values headers "transfer-encoding").getLast? = some v ∧ IsLastPart part v.toList ∧
    LetterCase.same (String.ofList (Blank.trim part)) "chunked"

theorem isChunked_iff : isChunked headers = true ↔ NamesChunked headers := by
  unfold isChunked
  rw [Header.getLast?_elements]
  cases hlast : (Header.values headers "transfer-encoding").getLast? with
  | none =>
    constructor
    · intro h
      cases h
    · rintro ⟨v, part, hv, -⟩
      cases hlast.symm.trans hv
  | some v =>
    obtain ⟨part, hpart⟩ := exists_isLastPart v.toList
    have hsplit := Header.getLast?_splitComma.2 hpart
    rw [Option.bind_some, hsplit]
    constructor
    · exact fun h => ⟨v, part, hlast, hpart, h⟩
    · rintro ⟨v', part', hv, hpart', h⟩
      obtain rfl := Option.some.inj (hlast.symm.trans hv)
      obtain rfl := Option.some.inj (hsplit.symm.trans (Header.getLast?_splitComma.2 hpart'))
      exact h

/-! ## The content lengths -/

/-- The text of a content length says `n`, and a word of 64 bits holds it. -/
def Denotes (v : String) (n : Nat) : Prop :=
  Numeral.unsigned? 64 v.toList = some n

/-- There are content lengths, and all of them say `n`. -/
def Agree (vs : List String) (n : Nat) : Prop :=
  vs ≠ [] ∧ ∀ v ∈ vs, Denotes v n

/-- One of them says nothing, or two of them say different things. -/
def Disagree (vs : List String) : Prop :=
  (∃ v ∈ vs, ∀ n, ¬Denotes v n) ∨ ∃ v ∈ vs, ∃ w ∈ vs, ∃ m n, Denotes v m ∧ Denotes w n ∧ m ≠ n

theorem Agree.unique {m : Nat} (h : Agree vs m) (h' : Agree vs n) : m = n := by
  obtain ⟨v, hv⟩ := List.exists_mem_of_ne_nil vs h.1
  exact Option.some.inj ((h.2 v hv).symm.trans (h'.2 v hv))

/-- Content lengths agree, or disagree, or there are none. -/
theorem disagree_iff : Disagree vs ↔ vs ≠ [] ∧ ∀ n, ¬Agree vs n := by
  constructor
  · rintro (⟨v, hv, hno⟩ | ⟨v, hv, w, hw, m, n, hm, hn, hne⟩)
    · exact ⟨List.ne_nil_of_mem hv, fun n h => hno n (h.2 v hv)⟩
    · refine ⟨List.ne_nil_of_mem hv, fun k h => hne ?_⟩
      rw [Option.some.inj (hm.symm.trans (h.2 v hv)), Option.some.inj (hn.symm.trans (h.2 w hw))]
  · rintro ⟨hne, hno⟩
    by_cases hbad : ∃ v ∈ vs, ∀ n, ¬Denotes v n
    · exact .inl hbad
    · simp only [not_exists, not_and, not_forall, not_not] at hbad
      obtain ⟨v, hv⟩ := List.exists_mem_of_ne_nil vs hne
      obtain ⟨m, hm⟩ := hbad v hv
      have hother : ∃ w ∈ vs, ¬Denotes w m := by
        refine Classical.byContradiction fun hall => hno m ⟨hne, fun w hw => ?_⟩
        exact Classical.byContradiction fun hw' => hall ⟨w, hw, hw'⟩
      obtain ⟨w, hw, hwm⟩ := hother
      obtain ⟨n, hn⟩ := hbad w hw
      exact .inr ⟨v, hv, w, hw, m, n, hm, hn, fun heq => hwm (heq ▸ hn)⟩

theorem any_ne_iff : (known.any (· != n)) = true ↔ ¬∀ k ∈ known, k = n := by
  cases known <;> simp

/-- The scan goes on as long as every length says what those before it have said. -/
theorem agreedLength_eq_ok {r : Option Nat} : agreedLength known vs = .ok r ↔
    (vs = [] ∧ r = known) ∨ ∃ n, r = some n ∧ Agree vs n ∧ ∀ k ∈ known, k = n := by
  fun_induction agreedLength known vs with
  | case1 known =>
    constructor
    · intro h
      exact .inl ⟨rfl, (Except.ok.inj h).symm⟩
    · rintro (⟨-, rfl⟩ | ⟨n, -, ⟨hne, -⟩, -⟩)
      · rfl
      · exact absurd rfl hne
  | case2 known v vs hv =>
    constructor
    · intro h
      cases h
    · rintro (⟨h, -⟩ | ⟨n, -, ⟨-, hall⟩, -⟩)
      · cases h
      · cases hv.symm.trans (hall v List.mem_cons_self)
  | case3 known v vs n hv hknown =>
    constructor
    · intro h
      cases h
    · rintro (⟨h, -⟩ | ⟨m, -, ⟨-, hall⟩, hm⟩)
      · cases h
      · obtain rfl := Option.some.inj (hv.symm.trans (hall v List.mem_cons_self))
        exact absurd hm (any_ne_iff.1 hknown)
  | case4 known v vs n hv hknown ih =>
    have hsame : ∀ k ∈ known, k = n := Classical.not_not.1 (mt any_ne_iff.2 hknown)
    rw [ih]
    constructor
    · rintro (⟨rfl, rfl⟩ | ⟨m, rfl, ⟨-, hall⟩, hm⟩)
      · exact .inr ⟨n, rfl, ⟨List.cons_ne_nil v [], List.forall_mem_singleton.2 hv⟩, hsame⟩
      · obtain rfl := hm n rfl
        exact .inr ⟨n, rfl, ⟨List.cons_ne_nil v vs, List.forall_mem_cons.2 ⟨hv, hall⟩⟩, hsame⟩
    · rintro (⟨h, -⟩ | ⟨m, rfl, ⟨-, hall⟩, -⟩)
      · cases h
      · obtain ⟨hm, hall⟩ := List.forall_mem_cons.1 hall
        obtain rfl := Option.some.inj (hv.symm.trans hm)
        by_cases hvs : vs = []
        · exact .inl ⟨hvs, rfl⟩
        · exact .inr ⟨n, rfl, ⟨hvs, hall⟩, fun k hk => (Option.some.inj hk).symm⟩

theorem agreedLength_error {fault : Fault} (h : agreedLength known vs = .error fault) : ∃ why, fault = .protocol why := by
  fun_induction agreedLength known vs with
  | case1 => cases h
  | case2 => cases h; exact ⟨_, rfl⟩
  | case3 => cases h; exact ⟨_, rfl⟩
  | case4 _ _ _ _ _ _ ih => exact ih h

theorem contentLength_eq_none :
    contentLength headers = .ok none ↔ Header.values headers "content-length" = [] := by
  unfold contentLength
  rw [agreedLength_eq_ok]
  simp

theorem contentLength_eq_some :
    contentLength headers = .ok (some n) ↔ Agree (Header.values headers "content-length") n := by
  unfold contentLength
  rw [agreedLength_eq_ok]
  simp

theorem contentLength_eq_error :
    (∃ fault, contentLength headers = .error fault) ↔ Disagree (Header.values headers "content-length") := by
  rw [disagree_iff]
  constructor
  · rintro ⟨fault, h⟩
    constructor
    · intro hnil
      cases h.symm.trans (contentLength_eq_none.2 hnil)
    · intro n hn
      cases h.symm.trans (contentLength_eq_some.2 hn)
  · rintro ⟨hne, hno⟩
    cases h : contentLength headers with
    | error fault => exact ⟨fault, rfl⟩
    | ok r =>
      cases r with
      | none => exact absurd (contentLength_eq_none.1 h) hne
      | some n => exact absurd (contentLength_eq_some.1 h) (hno n)

/-! ## The decision -/

/-- The framing of a message with this content length, and of one with none. -/
def ofLength (absent : Framing) : Option Nat → Framing
  | none => absent
  | some 0 => empty
  | some n => length n

/-- The framing of a message that has a body: where no header says a word, it is `absent`. -/
def ofHeaders (absent : Framing) (headers : List Header) : Except Fault Framing :=
  if isChunked headers then .ok chunked else (contentLength headers).map (ofLength absent)

theorem ofRequest_eq (headers : List Header) : ofRequest headers = ofHeaders empty headers := by
  have hlength : (fun | none | some 0 => empty | some n => length n : Option Nat → Framing) = ofLength empty := by
    funext r
    rcases r with _ | _ | n <;> rfl
  unfold ofRequest ofHeaders
  exact congrArg (fun f => if isChunked headers then .ok chunked else (contentLength headers).map f) hlength

theorem ofResponse_eq {method : String} {status : Nat} (headers : List Header) :
    ofResponse method status headers = if isBodiless method status then .ok empty else ofHeaders untilClose headers := by
  have hlength : (fun | none => untilClose | some 0 => empty | some n => length n : Option Nat → Framing) =
      ofLength untilClose := by
    funext r
    rcases r with _ | _ | n <;> rfl
  unfold ofResponse ofHeaders
  refine congrArg (fun f => if isBodiless method status then .ok empty else
    if isChunked headers then .ok chunked else (contentLength headers).map f) hlength

/-- Which framing comes of these headers, and when there is none. -/
structure Decides (absent : Framing) (headers : List Header) (r : Except Fault Framing) : Prop where
  chunked : r = .ok chunked ↔ NamesChunked headers
  refused : (∃ fault, r = .error fault) ↔ ¬NamesChunked headers ∧ Disagree (Header.values headers "content-length")
  length : ∀ n, r = .ok (length n) ↔
    ¬NamesChunked headers ∧ 0 < n ∧ Agree (Header.values headers "content-length") n
  empty : r = .ok empty ↔ ¬NamesChunked headers ∧
    (Agree (Header.values headers "content-length") 0 ∨ Header.values headers "content-length" = [] ∧ absent = empty)
  untilClose : r = .ok untilClose ↔
    ¬NamesChunked headers ∧ Header.values headers "content-length" = [] ∧ absent = untilClose
  /-- A refusal is for the framing and nothing else. -/
  protocol : ∀ fault, r = .error fault → ∃ why, fault = .protocol why

theorem ofHeaders_of_chunked (h : NamesChunked headers) : ofHeaders absent headers = .ok chunked :=
  if_pos (isChunked_iff.2 h)

theorem ofHeaders_of_not_chunked (h : ¬NamesChunked headers) :
    ofHeaders absent headers = (contentLength headers).map (ofLength absent) :=
  if_neg fun hchunked => h (isChunked_iff.1 hchunked)

/-- What comes of the content lengths, if no transfer coding is in their way. -/
theorem ofHeaders_eq_ok {framing : Framing} (hframing : framing ≠ chunked) : ofHeaders absent headers = .ok framing ↔
    ¬NamesChunked headers ∧ ∃ r, contentLength headers = .ok r ∧ ofLength absent r = framing := by
  by_cases h : NamesChunked headers
  · rw [ofHeaders_of_chunked h]
    constructor
    · intro heq
      exact absurd (Except.ok.inj heq).symm hframing
    · rintro ⟨hno, -⟩
      exact absurd h hno
  · rw [ofHeaders_of_not_chunked h]
    constructor
    · exact fun heq => ⟨h, exists_of_map_eq_ok heq⟩
    · rintro ⟨-, r, hr, rfl⟩
      rw [hr]
      rfl

theorem ofHeaders_eq_error {fault : Fault} : ofHeaders absent headers = .error fault ↔
    ¬NamesChunked headers ∧ contentLength headers = .error fault := by
  by_cases h : NamesChunked headers
  · rw [ofHeaders_of_chunked h]
    constructor
    · intro heq
      cases heq
    · rintro ⟨hno, -⟩
      exact absurd h hno
  · rw [ofHeaders_of_not_chunked h]
    cases contentLength headers with
    | error fault' =>
      exact ⟨fun heq => ⟨h, congrArg Except.error (Except.error.inj heq)⟩,
        fun heq => congrArg Except.error (Except.error.inj heq.2)⟩
    | ok r => exact ⟨nofun, fun heq => nomatch heq.2⟩

/-- **The framing is decided by the last transfer coding and by what the content lengths say.** -/
theorem decides_ofHeaders (habsent : absent = .empty ∨ absent = .untilClose) (headers : List Header) :
    Decides absent headers (ofHeaders absent headers) where
  chunked := by
    constructor
    · intro h
      refine Classical.byContradiction fun hno => ?_
      rw [ofHeaders_of_not_chunked hno] at h
      obtain ⟨r, -, hr⟩ := exists_of_map_eq_ok h
      rcases habsent with rfl | rfl <;> rcases r with _ | _ | n <;> cases hr
    · exact ofHeaders_of_chunked
  refused := by
    simp only [ofHeaders_eq_error, exists_and_left, contentLength_eq_error]
  length n := by
    rw [ofHeaders_eq_ok (by nofun), ← contentLength_eq_some]
    refine and_congr_right fun _ => ?_
    constructor
    · rintro ⟨r, hr, hn⟩
      rcases habsent with rfl | rfl <;> rcases r with _ | _ | m <;> cases hn
      all_goals exact ⟨Nat.succ_pos m, hr⟩
    · rintro ⟨hpos, hn⟩
      obtain ⟨m, rfl⟩ := Nat.exists_eq_succ_of_ne_zero (Nat.ne_of_gt hpos)
      exact ⟨_, hn, rfl⟩
  empty := by
    rw [ofHeaders_eq_ok (by nofun), ← contentLength_eq_some, ← contentLength_eq_none]
    refine and_congr_right fun _ => ?_
    constructor
    · rintro ⟨r, hr, hempty⟩
      rcases r with _ | _ | m
      · exact .inr ⟨hr, hempty⟩
      · exact .inl hr
      · cases hempty
    · rintro (hr | ⟨hr, rfl⟩)
      · exact ⟨_, hr, rfl⟩
      · exact ⟨_, hr, rfl⟩
  untilClose := by
    rw [ofHeaders_eq_ok (by nofun), ← contentLength_eq_none]
    refine and_congr_right fun _ => ?_
    constructor
    · rintro ⟨r, hr, huntil⟩
      rcases r with _ | _ | m
      · exact ⟨hr, huntil⟩
      · cases huntil
      · cases huntil
    · rintro ⟨hr, rfl⟩
      exact ⟨_, hr, rfl⟩
  protocol fault h := agreedLength_error (ofHeaders_eq_error.1 h).2

/-! ## What has no effect -/

theorem values_others {name : String} {h : Header} (hname : LetterCase.same h.1 name = false) (front behind : List Header) :
    Header.values (front ++ h :: behind) name = Header.values (front ++ behind) name := by
  unfold Header.values
  rw [List.filter_append, List.filter_append, List.filter_cons_of_neg (by rw [hname]; exact Bool.false_ne_true)]

/-- No response to this method and with this status has a body. -/
def HasNoBody (method : String) (status : Nat) : Prop :=
  LetterCase.same method "HEAD" ∨ (100 ≤ status ∧ status < 200) ∨ status = 204 ∨ status = 304

theorem isBodiless_iff {method : String} {status : Nat} : isBodiless method status = true ↔ HasNoBody method status := by
  simp [isBodiless, HasNoBody, or_assoc]

end Framing
end Http
end SearchTelemetry
