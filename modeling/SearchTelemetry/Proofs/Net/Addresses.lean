import SearchTelemetry.Net.SocketAddress
import SearchTelemetry.Proofs.Text.Numeral
/-!
# Net.Addresses — addresses are read back

Every address is read from its text as itself (`IpAddress.read?_text`, `SocketAddress.read?_text`).  For a version 6
address two things have to meet: the `::` of the text stands for as many groups as the reader puts in its place
(`longestZeros_spec`), and neither side of it reads on into the other.
-/
namespace SearchTelemetry

/-! ## Version 4 -/

namespace Ipv4

theorem takeOctet?_digits (n : UInt8) {rest : List Char} (hrest : ∀ c ∈ rest.head?, Numeral.isDigit c = false) :
    takeOctet? (Numeral.digits n.toNat ++ rest) = some (n, rest) := by
  have hbound : n.toNat < 256 := n.toNat_lt
  have htake := takeWhile_append_stop (fun c => Numeral.isDigit_of_mem_digits (n := n.toNat)) hrest
  have hlen : (Numeral.digits n.toNat).length ≤ 3 := (Nat.length_toDigits_le_iff (by decide) (by decide)).2 (by omega)
  have hone : ¬((Numeral.digits n.toNat).head? = some '0' ∧ 1 < (Numeral.digits n.toNat).length) := fun h =>
    absurd (Numeral.length_eq_one_of_head?_digits h.1) (by omega)
  simp only [takeOctet?, htake, Numeral.ofDigitChars_digits, List.isEmpty_iff, List.drop_left]
  rw [if_neg, UInt8.ofNat_toNat]
  rintro (h | h | h | h)
  · exact Numeral.digits_ne_nil _ h
  · omega
  · exact hone h
  · omega

/-- A version 4 address is read from its text, if no digit follows. -/
theorem take?_chars (x : Ipv4) {rest : List Char} (hrest : ∀ c ∈ rest.head?, Numeral.isDigit c = false) :
    take? (x.chars ++ rest) = some (x, rest) := by
  have hdot (cs : List Char) : ∀ c ∈ ('.' :: cs).head?, Numeral.isDigit c = false := by
    rintro _ ⟨⟩
    rfl
  simp only [chars, List.append_assoc, List.cons_append, take?, takeOctet?_digits _ (hdot _), Option.bind_some,
    takeNextOctet?, takeOctet?_digits _ hrest, Option.map_some]

theorem rest_of_takeOctet? {cs rest : List Char} {n : UInt8} (h : takeOctet? cs = some (n, rest)) :
    rest = cs.dropWhile Numeral.isDigit := by
  unfold takeOctet? at h
  simp only at h
  split at h
  · cases h
  · cases h
    have hdrop : ((cs.takeWhile Numeral.isDigit) ++ cs.dropWhile Numeral.isDigit).drop (cs.takeWhile Numeral.isDigit).length =
        cs.dropWhile Numeral.isDigit := List.drop_left
    rwa [List.takeWhile_append_dropWhile] at hdrop

/-- No version 4 address begins where no dot comes next to the digits. -/
theorem take?_eq_none {cs : List Char} (hcs : '.' ∉ cs) {rest : List Char}
    (hrest : ∀ c ∈ rest.head?, Numeral.isDigit c = false ∧ c ≠ '.') : take? (cs ++ rest) = none := by
  have hdot : ((cs ++ rest).dropWhile Numeral.isDigit).head? ≠ some '.' := by
    rw [List.dropWhile_append]
    split
    · cases rest with
      | nil => simp
      | cons c rest =>
        obtain ⟨hdigit, hc⟩ := hrest c rfl
        rw [List.dropWhile_cons_of_neg (by simp [hdigit])]
        exact fun h => hc (Option.some.inj h)
    · rename_i hne
      obtain ⟨c, behind, hc⟩ := List.exists_cons_of_ne_nil fun h => hne (List.isEmpty_iff.2 h)
      have hmem : c ∈ cs := (List.dropWhile_sublist _).subset (hc ▸ List.mem_cons_self)
      rw [hc]
      intro h
      have hcdot : c = '.' := Option.some.inj h
      exact hcs (hcdot ▸ hmem)
  unfold take?
  cases hoctet : takeOctet? (cs ++ rest) with
  | none => rfl
  | some found =>
    obtain ⟨n, behind⟩ := found
    have hbehind := rest_of_takeOctet? hoctet
    have hnext : takeNextOctet? behind = none := by
      unfold takeNextOctet?
      split
      · rw [← hbehind] at hdot
        exact absurd rfl hdot
      · rfl
    simp only [Option.bind_some, hnext, Option.bind_none]

theorem take?_eq_none_of_head {rest : List Char} (hrest : ∀ c ∈ rest.head?, Numeral.isDigit c = false ∧ c ≠ '.') :
    take? rest = none := by
  have hnone := take?_eq_none List.not_mem_nil hrest
  rwa [List.nil_append] at hnone

end Ipv4

/-! ## Version 6 -/

namespace Ipv6

/-- Groups behind colons. -/
def behindColons (gs : List UInt16) : List Char :=
  gs.flatMap fun g => ':' :: Numeral.hexDigits g.toNat

theorem groupChars_cons (g : UInt16) (gs : List UInt16) :
    groupChars (g :: gs) = Numeral.hexDigits g.toNat ++ behindColons gs := by
  induction gs generalizing g with
  | nil => simp [groupChars, behindColons]
  | cons g' gs ih =>
    have htail := ih g'
    unfold groupChars at htail ⊢
    rw [List.map_cons] at htail
    rw [List.map_cons, List.map_cons, List.intercalate_cons_cons, htail]
    simp [behindColons]

theorem isHexDigit_of_mem_hexDigits {n : Nat} {c : Char} (h : c ∈ Numeral.hexDigits n) : isHexDigit c = true := by
  have hvalue := Numeral.SpellsHex.hexValue?_ne_none (Numeral.spellsHex_hexDigits n) h
  exact Option.isSome_iff_ne_none.2 hvalue

theorem isDigit_of_isHexDigit {c : Char} (h : isHexDigit c = false) : Numeral.isDigit c = false := by
  rw [Bool.eq_false_iff]
  intro hdigit
  have hvalue : Numeral.hexValue? c = some (c.toNat - 0x30) := by
    rw [Numeral.hexValue?_eq, if_pos (Numeral.le_of_isDigit hdigit)]
  rw [isHexDigit, hvalue] at h
  cases h

theorem takeGroup?_hexDigits (g : UInt16) {rest : List Char} (hrest : ∀ c ∈ rest.head?, isHexDigit c = false) :
    takeGroup? (Numeral.hexDigits g.toNat ++ rest) = some (g, rest) := by
  have hbound : g.toNat < 65536 := g.toNat_lt
  have htake := takeWhile_append_stop (fun c => isHexDigit_of_mem_hexDigits (n := g.toNat)) hrest
  have hlen : (Numeral.hexDigits g.toNat).length ≤ 4 := (Nat.length_toDigits_le_iff (by decide) (by decide)).2 (by omega)
  simp only [takeGroup?, htake, List.drop_left, Numeral.hexDigits?_of_spellsHex (Numeral.spellsHex_hexDigits g.toNat),
    Option.map_some, UInt16.ofNat_toNat]
  exact if_neg (by omega)

/-- What may stand behind an address: nothing that could be taken for a part of it. -/
def Ends (rest : List Char) : Prop :=
  ∀ c ∈ rest.head?, isHexDigit c = false ∧ c ≠ '.' ∧ c ≠ ':'

/-- What may stand behind a group: no digit, and no dot. -/
def EndsGroup (rest : List Char) : Prop :=
  ∀ c ∈ rest.head?, isHexDigit c = false ∧ c ≠ '.'

theorem Ends.endsGroup {rest : List Char} (h : Ends rest) : EndsGroup rest :=
  fun c hc => ⟨(h c hc).1, (h c hc).2.1⟩

theorem endsGroup_colon (cs : List Char) : EndsGroup (':' :: cs) := by
  rintro _ ⟨⟩
  decide

theorem take?_hexDigits (g : UInt16) {rest : List Char} (hrest : EndsGroup rest) :
    Ipv4.take? (Numeral.hexDigits g.toNat ++ rest) = none := by
  refine Ipv4.take?_eq_none (fun h => ?_) fun c hc => ⟨isDigit_of_isHexDigit (hrest c hc).1, (hrest c hc).2⟩
  exact absurd (isHexDigit_of_mem_hexDigits h) (by decide)

theorem endsGroup_behindColons (gs : List UInt16) {rest : List Char} (hrest : EndsGroup rest) :
    EndsGroup (behindColons gs ++ rest) := by
  cases gs with
  | nil => exact hrest
  | cons g gs => exact endsGroup_colon _

/-- A reader of groups takes nothing off this text. -/
def Stops (room : Nat) (first : Bool) (rest : List Char) : Prop :=
  takeGroups room first rest = ⟨[], false, rest⟩

theorem takeGroups_group (room : Nat) {first : Bool} {cs : List Char} (g : UInt16) {rest : List Char}
    (hbehind : behindSeparator? first cs = some (Numeral.hexDigits g.toNat ++ rest)) (hrest : EndsGroup rest) :
    takeGroups (room + 1) first cs =
      { takeGroups room false rest with groups := g :: (takeGroups room false rest).groups } := by
  have hnone : (if 0 < room then Ipv4.take? (Numeral.hexDigits g.toNat ++ rest) else none) = none := by
    rw [take?_hexDigits g hrest, ite_self]
  simp only [takeGroups, hbehind, hnone, takeGroup?_hexDigits g fun c hc => (hrest c hc).1]

theorem takeGroups_behindColons (gs : List UInt16) (room : Nat) {rest : List Char} (hrest : EndsGroup rest)
    (hstop : Stops room false rest) :
    takeGroups (gs.length + room) false (behindColons gs ++ rest) = ⟨gs, false, rest⟩ := by
  induction gs with
  | nil => simpa [Stops, behindColons] using hstop
  | cons g gs ih =>
    have hroom : (g :: gs).length + room = gs.length + room + 1 := Nat.add_right_comm gs.length 1 room
    have hfirst : behindSeparator? false (behindColons (g :: gs) ++ rest) =
        some (Numeral.hexDigits g.toNat ++ (behindColons gs ++ rest)) := by
      simp [behindColons, behindSeparator?]
    rw [hroom, takeGroups_group _ g hfirst (endsGroup_behindColons gs hrest), ih]

theorem takeGroups_groupChars (gs : List UInt16) (room : Nat) {rest : List Char} (hrest : EndsGroup rest)
    (hstop : Stops room gs.isEmpty rest) :
    takeGroups (gs.length + room) true (groupChars gs ++ rest) = ⟨gs, false, rest⟩ := by
  cases gs with
  | nil => simpa [Stops, groupChars] using hstop
  | cons g gs =>
    have hroom : (g :: gs).length + room = gs.length + room + 1 := Nat.add_right_comm gs.length 1 room
    have hfirst : behindSeparator? true (groupChars (g :: gs) ++ rest) =
        some (Numeral.hexDigits g.toNat ++ (behindColons gs ++ rest)) := by
      rw [groupChars_cons, List.append_assoc]
      rfl
    rw [hroom, takeGroups_group _ g hfirst (endsGroup_behindColons gs hrest), takeGroups_behindColons gs room hrest hstop]

/-! ## Where groups end -/

theorem stops_of_behind (room : Nat) {first : Bool} {rest behind : List Char}
    (hbehind : behindSeparator? first rest = some behind) (h : EndsGroup behind) : Stops room first rest := by
  cases room with
  | zero => rfl
  | succ room =>
    have haddress : Ipv4.take? behind = none :=
      Ipv4.take?_eq_none_of_head fun c hc => ⟨isDigit_of_isHexDigit (h c hc).1, (h c hc).2⟩
    have hgroup : takeGroup? behind = none := by
      have htake : ([] ++ behind).takeWhile isHexDigit = [] :=
        takeWhile_append_stop (List.forall_mem_nil _) fun c hc => (h c hc).1
      rw [List.nil_append] at htake
      rw [takeGroup?, htake]
      rfl
    simp only [Stops, takeGroups, hbehind, haddress, ite_self, hgroup]

/-- Nothing but a colon leads on from one group to the next. -/
theorem stops_of_ends (room : Nat) (first : Bool) {rest : List Char} (hrest : Ends rest) : Stops room first rest := by
  cases first with
  | true => exact stops_of_behind room rfl hrest.endsGroup
  | false =>
    have hnone : behindSeparator? false rest = none := by
      unfold behindSeparator?
      split
      · rename_i h
        cases h
      · split
        · exact absurd rfl (hrest ':' rfl).2.2
        · rfl
    cases room with
    | zero => rfl
    | succ room => simp only [Stops, takeGroups, hnone]

theorem stops_doubleColon (room : Nat) (first : Bool) (rest : List Char) : Stops room first (':' :: ':' :: rest) := by
  cases first with
  | true => exact stops_of_behind room rfl (endsGroup_colon _)
  | false => exact stops_of_behind room rfl (endsGroup_colon _)

/-! ## The longest run of zeros -/

theorem zerosAhead_spec (gs : List UInt16) : gs = List.replicate (zerosAhead gs) 0 ++ gs.drop (zerosAhead gs) := by
  induction gs with
  | nil => rfl
  | cons g gs ih =>
    by_cases hg : g = 0
    · have hzeros : zerosAhead (g :: gs) = zerosAhead gs + 1 := by
        rw [zerosAhead, List.takeWhile_cons_of_pos (by simpa using hg)]
        rfl
      rw [hzeros, List.replicate_succ, List.drop_succ_cons, List.cons_append, ← ih, hg]
    · have hzeros : zerosAhead (g :: gs) = 0 := by
        rw [zerosAhead, List.takeWhile_cons_of_neg (by simpa using hg)]
        rfl
      rw [hzeros]
      rfl

/-- Where the longest run is said to be, there are that many zeros. -/
theorem longestZeros_spec (offset : Nat) (gs : List UInt16) :
    ∃ start, (longestZeros offset gs).1 = offset + start ∧
      gs = gs.take start ++ List.replicate (longestZeros offset gs).2 0 ++ gs.drop (start + (longestZeros offset gs).2) := by
  induction gs generalizing offset with
  | nil => exact ⟨0, rfl, rfl⟩
  | cons g gs ih =>
    unfold longestZeros
    simp only
    split
    · refine ⟨0, rfl, ?_⟩
      rw [List.take_zero, List.nil_append, Nat.zero_add]
      exact zerosAhead_spec (g :: gs)
    · obtain ⟨start, hstart, hgs⟩ := ih (offset + 1)
      refine ⟨start + 1, by omega, ?_⟩
      have hdrop : start + 1 + (longestZeros (offset + 1) gs).2 = start + (longestZeros (offset + 1) gs).2 + 1 := by omega
      rw [hdrop, List.take_succ_cons, List.drop_succ_cons, List.cons_append, List.cons_append, ← hgs]

/-! ## Whole addresses -/

theorem ofGroups?_groups (x : Ipv6) : ofGroups? x.groups = some x :=
  dif_pos x.length_groups

/-- An address with a `::` in it: what the reader finds on either side, and zeros between. -/
theorem take?_of_gap {cs behind rest : List Char} {head tail : List UInt16} {zeros : Nat} {embedded : Bool} {x : Ipv6}
    (hx : x.groups = head ++ List.replicate zeros 0 ++ tail) (hzeros : 0 < zeros)
    (hhead : takeGroups 8 true cs = ⟨head, false, ':' :: ':' :: behind⟩)
    (htail : takeGroups (7 - head.length) true behind = ⟨tail, embedded, rest⟩) : take? cs = some (x, rest) := by
  have hlen := x.length_groups
  rw [hx, List.length_append, List.length_append, List.length_replicate] at hlen
  have hne : head.length ≠ 8 := by omega
  have hgap : 8 - head.length - tail.length = zeros := by omega
  simp only [take?, hhead, if_neg hne, Bool.false_eq_true, if_false, htail, hgap, ← hx, ofGroups?_groups, Option.map_some]

theorem groups_ofGroups (high low : UInt16) : (Ipv4.ofGroups high low).groups = [high, low] := by
  have hgroup (g : UInt16) : (g / 256).toUInt8.toUInt16 * 256 + g.toUInt8.toUInt16 = g := by
    have hbound : g.toNat < 65536 := g.toNat_lt
    rw [← UInt16.toNat_inj]
    simp only [UInt16.toNat_add, UInt16.toNat_mul, UInt8.toNat_toUInt16, UInt16.toNat_toUInt8, UInt16.toNat_div,
      UInt16.reduceToNat]
    omega
  simp only [Ipv4.groups, Ipv4.ofGroups, hgroup]

theorem groups_of_mapped? {x : Ipv6} {v4 : Ipv4} (h : x.mapped? = some v4) :
    x.groups = [0, 0, 0, 0, 0, 0xffff] ++ v4.groups := by
  unfold mapped? at h
  split at h
  · rename_i high low hgroups
    cases h
    rw [hgroups, groups_ofGroups]
    rfl
  · cases h

theorem take?_mapped {x : Ipv6} {v4 : Ipv4} (h : x.mapped? = some v4) {rest : List Char} (hrest : Ends rest) :
    take? ([':', ':', 'f', 'f', 'f', 'f', ':'] ++ v4.chars ++ rest) = some (x, rest) := by
  have hv4 : takeGroups 6 false (':' :: (v4.chars ++ rest)) = ⟨v4.groups, true, rest⟩ := by
    have hread := Ipv4.take?_chars v4 fun c hc => isDigit_of_isHexDigit (hrest c hc).1
    simp only [takeGroups, behindSeparator?, Bool.false_eq_true, if_false, Nat.zero_lt_succ, if_true, hread]
  have hffff : Numeral.hexDigits (0xffff : UInt16).toNat = ['f', 'f', 'f', 'f'] := by decide
  have htail : takeGroups 7 true (['f', 'f', 'f', 'f'] ++ ':' :: (v4.chars ++ rest)) = ⟨0xffff :: v4.groups, true, rest⟩ := by
    rw [← hffff, takeGroups_group 6 0xffff rfl (endsGroup_colon _), hv4]
  have hcs : [':', ':', 'f', 'f', 'f', 'f', ':'] ++ v4.chars ++ rest =
      ':' :: ':' :: (['f', 'f', 'f', 'f'] ++ ':' :: (v4.chars ++ rest)) := by
    simp
  have hx : x.groups = [] ++ List.replicate 5 0 ++ (0xffff :: v4.groups) := groups_of_mapped? h
  rw [hcs]
  exact take?_of_gap hx (by decide) (stops_doubleColon 8 true _) htail

theorem hexChars_eq (x : Ipv6) : ∃ head zeros tail, x.groups = head ++ List.replicate zeros 0 ++ tail ∧
    x.hexChars = if 1 < zeros then groupChars head ++ [':', ':'] ++ groupChars tail else groupChars x.groups := by
  obtain ⟨start, hstart, hgroups⟩ := longestZeros_spec 0 x.groups
  rw [Nat.zero_add] at hstart
  refine ⟨x.groups.take start, (longestZeros 0 x.groups).2, x.groups.drop (start + (longestZeros 0 x.groups).2), hgroups, ?_⟩
  unfold hexChars
  simp only [hstart]

theorem take?_hexChars (x : Ipv6) {rest : List Char} (hrest : Ends rest) : take? (x.hexChars ++ rest) = some (x, rest) := by
  have hlen := x.length_groups
  obtain ⟨head, zeros, tail, hx, hchars⟩ := hexChars_eq x
  rw [hchars]
  split
  · -- behind the `::` the reader has room for one group less than are left, which is enough as it stands for two at least
    rename_i hzeros
    have hsum := hlen
    rw [hx, List.length_append, List.length_append, List.length_replicate] at hsum
    have hcs : groupChars head ++ [':', ':'] ++ groupChars tail ++ rest =
        groupChars head ++ ':' :: ':' :: (groupChars tail ++ rest) := by
      simp
    have hhead := takeGroups_groupChars head (8 - head.length) (endsGroup_colon _)
      (stops_doubleColon _ _ (groupChars tail ++ rest))
    have htail := takeGroups_groupChars tail (7 - head.length - tail.length) hrest.endsGroup (stops_of_ends _ _ hrest)
    have hroom : head.length + (8 - head.length) = 8 := by omega
    have hroom' : tail.length + (7 - head.length - tail.length) = 7 - head.length := by omega
    rw [hroom] at hhead
    rw [hroom'] at htail
    rw [hcs]
    exact take?_of_gap hx (by omega) hhead htail
  · have hall := takeGroups_groupChars x.groups 0 hrest.endsGroup rfl
    rw [hlen] at hall
    simp only [take?, hall, hlen, if_true, ofGroups?_groups, Option.map_some]

/-- A version 6 address is read from its text, if nothing follows that could be taken for a part of it. -/
theorem take?_chars (x : Ipv6) {rest : List Char} (hrest : Ends rest) : take? (x.chars ++ rest) = some (x, rest) := by
  unfold chars
  split
  · rename_i v4 h
    exact take?_mapped h hrest
  · exact take?_hexChars x hrest

theorem isHexDigit_or_colon_of_mem {gs : List UInt16} {c : Char} (h : c ∈ groupChars gs) : isHexDigit c = true ∨ c = ':' := by
  cases gs with
  | nil => cases h
  | cons g gs =>
    rw [groupChars_cons] at h
    rcases List.mem_append.1 h with h | h
    · exact .inl (isHexDigit_of_mem_hexDigits h)
    · obtain ⟨g', _, h⟩ := List.mem_flatMap.1 h
      rcases List.mem_cons.1 h with h | h
      · exact .inr h
      · exact .inl (isHexDigit_of_mem_hexDigits h)

/-- A version 6 address does not begin with a version 4 address, though it may end with one. -/
theorem take?_v4_eq_none (x : Ipv6) : Ipv4.take? x.chars = none := by
  unfold chars
  split
  · exact Ipv4.take?_eq_none_of_head fun c hc => by cases hc; decide
  · have hdot : '.' ∉ x.hexChars := by
      have hgroups {gs : List UInt16} : '.' ∉ groupChars gs := fun h => by
        rcases isHexDigit_or_colon_of_mem h with h | h
        · exact absurd h (by decide)
        · cases h
      obtain ⟨head, zeros, tail, _, hchars⟩ := hexChars_eq x
      rw [hchars]
      split
      · simp [hgroups]
      · exact hgroups
    have hnone : Ipv4.take? (x.hexChars ++ []) = none := Ipv4.take?_eq_none hdot fun c hc => by cases hc
    rwa [List.append_nil] at hnone

end Ipv6

/-! ## Hosts and ports -/

/-- **The address of a host is read back from its text.** -/
theorem IpAddress.read?_text (x : IpAddress) : IpAddress.read? x.text = some x := by
  rw [IpAddress.read?, IpAddress.text, String.toList_ofList]
  cases x with
  | v4 x =>
    have hread : Ipv4.take? (x.chars ++ []) = some (x, []) := Ipv4.take?_chars x fun c hc => by cases hc
    rw [List.append_nil] at hread
    simp only [IpAddress.chars, hread]
    rfl
  | v6 x =>
    have hread : Ipv6.take? (x.chars ++ []) = some (x, []) := Ipv6.take?_chars x fun c hc => by cases hc
    rw [List.append_nil] at hread
    simp only [IpAddress.chars, Ipv6.take?_v4_eq_none, hread]
    rfl

namespace SocketAddress

theorem takeNumber?_digits {limit n : Nat} (hn : n < limit) {rest : List Char}
    (hrest : ∀ c ∈ rest.head?, Numeral.isDigit c = false) :
    takeNumber? limit (Numeral.digits n ++ rest) = some (n, rest) := by
  have htake := takeWhile_append_stop (fun c => Numeral.isDigit_of_mem_digits (n := n)) hrest
  simp [takeNumber?, htake, Numeral.unsignedDigits?_digits, Option.filter, hn]

theorem port?_digits (p : UInt16) : port? (':' :: Numeral.digits p.toNat) = some p := by
  have hnumber : takeNumber? UInt16.size (Numeral.digits p.toNat ++ []) = some (p.toNat, []) :=
    takeNumber?_digits p.toNat_lt fun c hc => by cases hc
  rw [List.append_nil] at hnumber
  simp only [port?, hnumber, Option.bind_some, List.isEmpty_nil, if_true, UInt16.ofNat_toNat]

theorem takeScope_scopeChars (scope : UInt32) (rest : List Char) :
    takeScope (scopeChars scope ++ ']' :: rest) = (scope, ']' :: rest) := by
  unfold scopeChars
  split
  · rename_i h
    rw [h]
    rfl
  · have hnumber : takeNumber? UInt32.size (Numeral.digits scope.toNat ++ ']' :: rest) = some (scope.toNat, ']' :: rest) :=
      takeNumber?_digits scope.toNat_lt fun c hc => by cases hc; rfl
    simp only [List.cons_append, takeScope, hnumber, UInt32.ofNat_toNat]

theorem ends_scopeChars (scope : UInt32) (rest : List Char) : Ipv6.Ends (scopeChars scope ++ ']' :: rest) := by
  unfold scopeChars
  split
  · rintro _ ⟨⟩
    decide
  · rintro _ ⟨⟩
    decide

/-- **The address of a service is read back from its text.** -/
theorem read?_text (x : SocketAddress) : read? x.text = some x := by
  rw [read?, text, String.toList_ofList]
  cases x with
  | v4 x port =>
    have hread : Ipv4.take? (x.chars ++ ':' :: Numeral.digits port.toNat) = some (x, ':' :: Numeral.digits port.toNat) :=
      Ipv4.take?_chars x fun c hc => by cases hc; rfl
    simp only [chars, hread, Option.bind_some, port?_digits, Option.map_some]
  | v6 x scope port =>
    have hnone (cs : List Char) : Ipv4.take? ('[' :: cs) = none :=
      Ipv4.take?_eq_none_of_head fun c hc => by cases hc; decide
    have hread := Ipv6.take?_chars x (ends_scopeChars scope (':' :: Numeral.digits port.toNat))
    have hchars : (SocketAddress.v6 x scope port).chars =
        '[' :: (x.chars ++ (scopeChars scope ++ ']' :: ':' :: Numeral.digits port.toNat)) := by
      simp [chars]
    rw [hchars]
    simp only [hnone, Option.bind_none, bracketed?, hread, Option.bind_some, takeScope_scopeChars, port?_digits,
      Option.map_some]

end SocketAddress
end SearchTelemetry
