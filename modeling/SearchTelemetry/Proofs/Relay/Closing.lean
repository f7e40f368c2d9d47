import Mathlib.Data.List.Perm.Basic
import Mathlib.Logic.Relation
import SearchTelemetry.Proofs.Http.Framings
import SearchTelemetry.Relay.Connection
/-!
# Relay.Closing — which message is the last on its connection

The decision to close goes through the connection headers element by element, and an element `close` ends the walk.  All the
same no order counts in it: it comes of which elements there are, and of the version where there is neither `close` nor
`keep-alive` (`wantsClose_iff`).  Lists with the same elements, in whatever order and however spread over headers and values
(`Regrouped`), are decided alike.  A response that runs to the end of its stream closes its connection whatever its headers
say (`closing_decided`).
-/
namespace SearchTelemetry
namespace Http

/-! ## Elements -/

/-- What stands between two commas of a text, between a comma and an end of it, or all of it. -/
def IsPart (part cs : List Char) : Prop :=
  IsLastPart part cs ∨ ∃ front behind, cs = front ++ ',' :: behind ∧ IsLastPart part front

theorem IsPart.append {part front : List Char} (h : IsPart part front) (behind : List Char) :
    IsPart part (front ++ ',' :: behind) := by
  rcases h with h | ⟨front', behind', rfl, h⟩
  · exact .inr ⟨front, behind, rfl, h⟩
  · exact .inr ⟨front', behind' ++ ',' :: behind, by simp, h⟩

namespace Header

theorem isPart_of_mem_splitComma {part : List Char} (cs : List Char) (h : part ∈ splitComma cs) : IsPart part cs := by
  obtain ⟨last, hcomma, rfl | ⟨front, rfl⟩⟩ := exists_isLastPart cs
  · rw [splitComma_of_not_mem _ hcomma] at h
    obtain rfl := List.mem_singleton.1 h
    exact .inl ⟨hcomma, .inl rfl⟩
  · rw [splitComma_append, splitComma_of_not_mem _ hcomma] at h
    rcases List.mem_append.1 h with h | h
    · exact (isPart_of_mem_splitComma front h).append last
    · obtain rfl := List.mem_singleton.1 h
      exact .inl ⟨hcomma, .inr ⟨front, rfl⟩⟩
termination_by cs.length

/-- The parts of a text are just what its commas and its ends delimit. -/
theorem mem_splitComma_iff {part cs : List Char} : part ∈ splitComma cs ↔ IsPart part cs := by
  refine ⟨isPart_of_mem_splitComma cs, ?_⟩
  rintro (h | ⟨front, behind, rfl, h⟩)
  · exact List.mem_of_getLast? (getLast?_splitComma.2 h)
  · rw [splitComma_append]
    exact List.mem_append_left _ (List.mem_of_getLast? (getLast?_splitComma.2 h))

/-- Some element of some header of this name is this token, letter case and the blanks around it aside. -/
def Names (name token : String) (headers : List Header) : Prop :=
  ∃ h ∈ headers, LetterCase.same h.1 name ∧
    ∃ part, IsPart part h.2.toList ∧ LetterCase.same (String.ofList (Blank.trim part)) token

theorem names_iff {name token : String} {headers : List Header} :
    Names name token headers ↔ ∃ e ∈ elements headers name, LetterCase.same e token := by
  constructor
  · rintro ⟨h, hmem, hname, part, hpart, htoken⟩
    have hvalue : h.2 ∈ values headers name := List.mem_map_of_mem (List.mem_filter.2 ⟨hmem, hname⟩)
    exact ⟨_, List.mem_flatMap.2 ⟨h.2, hvalue, List.mem_map_of_mem (mem_splitComma_iff.2 hpart)⟩, htoken⟩
  · rintro ⟨e, he, htoken⟩
    obtain ⟨v, hv, he⟩ := List.mem_flatMap.1 he
    obtain ⟨part, hpart, rfl⟩ := List.mem_map.1 he
    obtain ⟨h, hh, rfl⟩ := List.mem_map.1 hv
    obtain ⟨hmem, hname⟩ := List.mem_filter.1 hh
    exact ⟨h, hmem, hname, part, mem_splitComma_iff.1 hpart, htoken⟩

/-! ## Regrouping -/

/-- One change to a list of headers that leaves it with the same elements of a name. -/
inductive Regroups (name : String) : List Header → List Header → Prop where
  /-- The headers in another order. -/
  | permuted {headers headers' : List Header} (h : headers.Perm headers') : Regroups name headers headers'
  /-- The elements of a value in another order. -/
  | shuffled (front behind : List Header) (n : String) {v v' : String}
      (h : (splitComma v.toList).Perm (splitComma v'.toList)) :
      Regroups name (front ++ (n, v) :: behind) (front ++ (n, v') :: behind)
  /-- A value in two at a comma, each in a header of its own. -/
  | cut (front behind : List Header) (n v v' : String) :
      Regroups name (front ++ (n, v ++ "," ++ v') :: behind) (front ++ (n, v) :: (n, v') :: behind)
  /-- The letter case of a name. -/
  | renamed (front behind : List Header) {n n' : String} (hn : LetterCase.same n n' = true) (v : String) :
      Regroups name (front ++ (n, v) :: behind) (front ++ (n', v) :: behind)
  /-- A header of another name. -/
  | other (front behind : List Header) {h : Header} (hn : LetterCase.same h.1 name = false) :
      Regroups name (front ++ behind) (front ++ h :: behind)

/-- Any number of such changes, made or taken back: values are joined as well as cut, headers left out as well as added. -/
def Regrouped (name : String) : List Header → List Header → Prop :=
  Relation.EqvGen (Regroups name)

theorem elements_append (front behind : List Header) (name : String) :
    elements (front ++ behind) name = elements front name ++ elements behind name := by
  simp [elements, values]

theorem elements_cons (n v : String) (behind : List Header) (name : String) :
    elements ((n, v) :: behind) name =
      (if LetterCase.same n name then (splitComma v.toList).map fun part => String.ofList (Blank.trim part) else []) ++
        elements behind name := by
  by_cases hn : LetterCase.same n name = true <;> simp [elements, values, hn]

theorem Regroups.perm {name : String} {headers headers' : List Header} (h : Regroups name headers headers') :
    (elements headers name).Perm (elements headers' name) := by
  cases h with
  | permuted h => exact ((h.filter _).map _).flatMap_right _
  | shuffled front behind n h =>
    rw [elements_append, elements_append, elements_cons, elements_cons]
    refine List.Perm.append_left _ (List.Perm.append_right _ ?_)
    split
    · exact h.map _
    · exact .refl _
  | cut front behind n v v' =>
    have hcut : splitComma (v ++ "," ++ v').toList = splitComma v.toList ++ splitComma v'.toList := by
      rw [← splitComma_append]
      simp
    rw [elements_append, elements_append, elements_cons, elements_cons, elements_cons, hcut]
    refine List.Perm.append_left _ ?_
    split
    · simp
    · simp
  | renamed front behind hn v =>
    have hlower : LetterCase.lower _ = LetterCase.lower _ := eq_of_beq hn
    rw [elements_append, elements_append, elements_cons, elements_cons, LetterCase.same, LetterCase.same, hlower]
  | other front behind hn => rw [elements, elements, Framing.values_others hn]

theorem Regrouped.perm {name : String} {headers headers' : List Header} (h : Regrouped name headers headers') :
    (elements headers name).Perm (elements headers' name) := by
  induction h with
  | rel _ _ h => exact h.perm
  | refl _ => exact .refl _
  | symm _ _ _ ih => exact ih.symm
  | trans _ _ _ _ _ ih ih' => exact ih.trans ih'

end Header

/-! ## The decision -/

/-- Some connection element says to close, or the version is the first one and none says to keep the connection. -/
def Closes (minor : Nat) (headers : List Header) : Prop :=
  Header.Names "connection" "close" headers ∨ minor = 0 ∧ ¬Header.Names "connection" "keep-alive" headers

/-- An element `keep-alive` takes the decision back for good unless an element `close` comes, before it or after it. -/
theorem closeAfter_eq_true_iff {close : Bool} {es : List String} :
    closeAfter close es = true ↔ (∃ e ∈ es, LetterCase.same e "close") ∨
      close = true ∧ ¬∃ e ∈ es, LetterCase.same e "keep-alive" := by
  induction es generalizing close with
  | nil => simp [closeAfter]
  | cons e es ih =>
    by_cases hclose : LetterCase.same e "close" = true
    · simp [closeAfter, hclose]
    · simp [closeAfter, hclose, ih, and_assoc]

/-- **Whether a message is the last one comes of which connection elements there are**, and in no order. -/
theorem wantsClose_iff {minor : Nat} {headers : List Header} : wantsClose minor headers = true ↔ Closes minor headers := by
  rw [wantsClose, closeAfter_eq_true_iff, ← Header.names_iff, ← Header.names_iff, beq_iff_eq]
  rfl

theorem Header.Regrouped.closes_iff {headers headers' : List Header} (h : Regrouped "connection" headers headers')
    (minor : Nat) : Closes minor headers ↔ Closes minor headers' := by
  have hnames : ∀ token, Names "connection" token headers ↔ Names "connection" token headers' := fun token => by
    simp only [names_iff, h.perm.mem_iff]
  rw [Closes, Closes, hnames, hnames]

theorem ResponseHead.wantsClose_eq_true_iff {head : ResponseHead} :
    head.wantsClose = true ↔ head.framing = .untilClose ∨ Closes head.parts.minor head.parts.headers := by
  rw [ResponseHead.wantsClose, Bool.or_eq_true, beq_iff_eq, wantsClose_iff]

end Http

namespace Relay

open Http (Framing Header RequestHead ResponseHead)

theorem Connection.passResponse_of_wantsClose {head : ResponseHead} (h : head.wantsClose = true) (c : Context) (m : Moment)
    (k : Connection) (x : Exchange) (sent : Nat) :
    (k.passResponse c m x head sent).1.phase = .closed ∨
      ∃ sent', (k.passResponse c m x head sent).1.phase = .returning x head sent' := by
  unfold passResponse
  dsimp only [Step.after]
  split
  · exact .inr ⟨_, rfl⟩
  · exact .inl rfl
  · rw [h, Bool.or_true, if_pos rfl]
    exact .inl rfl

/-- **The decision to close is one of which elements there are.**  A message is the last one on its connection just if it says
so, of a request and of a response; changes that keep the elements of the connection headers keep the decision; and a
response that runs to the end of its stream always closes, so that the relay has no further exchange on the connection. -/
theorem closing_decided :
    (∀ minor headers, Http.wantsClose minor headers = true ↔ Http.Closes minor headers) ∧
      (∀ minor headers headers', Header.Regrouped "connection" headers headers' →
        Http.wantsClose minor headers = Http.wantsClose minor headers') ∧
      (∀ head : RequestHead, head.wantsClose = true ↔ Http.Closes head.parts.minor head.parts.headers) ∧
      (∀ head : ResponseHead, head.wantsClose = true ↔
        head.framing = .untilClose ∨ Http.Closes head.parts.minor head.parts.headers) ∧
      ∀ (c : Context) (m : Moment) (k : Connection) (x : Exchange) (head : ResponseHead) (sent : Nat),
        head.framing = .untilClose → (k.passResponse c m x head sent).1.phase = .closed ∨
          ∃ sent', (k.passResponse c m x head sent).1.phase = .returning x head sent' := by
  refine ⟨fun _ _ => Http.wantsClose_iff, fun minor headers headers' h => ?_, fun _ => Http.wantsClose_iff,
    fun _ => Http.ResponseHead.wantsClose_eq_true_iff, fun c m k x head sent h => ?_⟩
  · exact Bool.eq_iff_iff.2 (Http.wantsClose_iff.trans ((h.closes_iff minor).trans Http.wantsClose_iff.symm))
  · exact Connection.passResponse_of_wantsClose (Http.ResponseHead.wantsClose_eq_true_iff.2 (.inl h)) c m k x sent

/-- Two elements of one value, in two headers in the other order with a header of another name between them; and a response
without a word of where its body ends, to a request that would have kept the connection. -/
theorem closing_decided_keep_alive_close :
    let one : List Header := [("Connection", "keep-alive, close")]
    let two : List Header := [("Connection", " close"), ("Host", "a"), ("connection", "keep-alive")]
    let head : ResponseHead := ⟨[], ⟨1, 200, "OK", []⟩, .untilClose⟩
    let x : Exchange := ⟨1, ⟨[], ⟨"GET", "/", 1, []⟩, .empty⟩, 0, ⟨[0x68, 0x69], true⟩⟩
    let k := (Connection.fresh 1 "c").passResponse ⟨"b", .standard⟩ ⟨⟨0, 0⟩, 0⟩ x head 0
    Header.Regrouped "connection" one two ∧ Http.wantsClose 1 one = true ∧ Http.wantsClose 1 one = Http.wantsClose 1 two ∧
      head.framing = .untilClose ∧ (k.1.phase = .closed ∨ ∃ sent, k.1.phase = .returning x head sent) := by
  intro one two head x k
  have hregrouped : Header.Regrouped "connection" one two := by
    have hshuffled : Header.Regroups "connection" one [("Connection", " close" ++ "," ++ "keep-alive")] :=
      .shuffled [] [] "Connection" (by decide +kernel)
    have hcut : Header.Regroups "connection" _ [("Connection", " close"), ("Connection", "keep-alive")] :=
      .cut [] [] "Connection" " close" "keep-alive"
    have hcase : LetterCase.same "Connection" "connection" = true := by decide +kernel
    have hrenamed : Header.Regroups "connection" _ [("Connection", " close"), ("connection", "keep-alive")] :=
      .renamed [("Connection", " close")] [] hcase "keep-alive"
    have hother : Header.Regroups "connection" _ two :=
      .other [("Connection", " close")] [("connection", "keep-alive")] (by decide +kernel)
    exact .trans _ _ _ (.rel _ _ hshuffled) (.trans _ _ _ (.rel _ _ hcut) (.trans _ _ _ (.rel _ _ hrenamed) (.rel _ _ hother)))
  exact ⟨hregrouped, by decide +kernel, closing_decided.2.1 1 one two hregrouped, rfl,
    closing_decided.2.2.2.2 _ _ _ x head 0 rfl⟩

end Relay
end SearchTelemetry
