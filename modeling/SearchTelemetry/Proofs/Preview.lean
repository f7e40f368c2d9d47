import SearchTelemetry.Http.Body
import SearchTelemetry.Proofs.Http.Bodies
import SearchTelemetry.Proofs.Text.Cut
import SearchTelemetry.Proofs.Text.Numeral
import SearchTelemetry.Text.Preview
/-!
# Preview — what is shown of a body that is a text

A body is cut twice at one limit: the tap keeps its first bytes, and of their text as much is shown as fits.  The first cut
may fall inside a character, whose rest is then read as U+FFFD.  U+FFFD takes three bytes, so the second cut removes it again
unless three bytes of the character were kept, that is, unless the character takes four and the limit falls before the last
of them.  Short of that one case the preview is exact (`isExact_body_iff`).
-/
namespace SearchTelemetry
namespace Preview

open Utf8 (replacement width)

variable {max n : Nat} {c : Char} {a b cs p q : List Char}

/-! ## The text that fits -/

/-- The longest beginning of a text, in whole characters, that takes at most `max` bytes. -/
structure IsLongestFit (max : Nat) (cs p : List Char) : Prop where
  isPrefix : p <+: cs
  length_le : Utf8.length p ≤ max
  longest : ∀ q, q <+: cs → Utf8.length q ≤ max → q <+: p

theorem IsLongestFit.unique (hp : IsLongestFit max cs p) (hq : IsLongestFit max cs q) : p = q :=
  (hq.longest p hp.isPrefix hp.length_le).sublist.antisymm (hp.longest q hq.isPrefix hq.length_le).sublist

theorem isLongestFit_of_append (hle : Utf8.length a ≤ max) (hlt : max < Utf8.length a + width c) :
    IsLongestFit max (a ++ c :: b) a where
  isPrefix := List.prefix_append a _
  length_le := hle
  longest q hq hlen := by
    -- a longer beginning has the character behind `a`, too
    rcases List.prefix_or_prefix_of_prefix hq (List.prefix_append a _) with h | ⟨d, rfl⟩
    · exact h
    · cases d with
      | nil => simp
      | cons d ds =>
        obtain ⟨rfl, -⟩ := List.cons_prefix_cons.1 ((List.prefix_append_right_inj a).1 hq)
        simp only [Utf8.length_append, Utf8.length_cons] at hlen
        omega

@[simp] theorem truncateChars_nil (max : Nat) : truncateChars max [] = [] := rfl

theorem truncateChars_of_lt (h : max < width c) : truncateChars max (c :: cs) = [] := by
  simp [truncateChars, h]

theorem truncateChars_append (p q : List Char) (n : Nat) :
    truncateChars (Utf8.length p + n) (p ++ q) = p ++ truncateChars n q := by
  induction p with
  | nil => simp
  | cons c p ih =>
    have hrest : width c + Utf8.length p + n - width c = Utf8.length p + n := by omega
    have hfits : width c ≤ width c + Utf8.length p + n := by omega
    simp [truncateChars, hfits, hrest, ih]

theorem truncateChars_of_length_le (h : Utf8.length cs ≤ max) : truncateChars max cs = cs := by
  obtain ⟨n, rfl⟩ := Nat.exists_eq_add_of_le h
  simpa using truncateChars_append cs [] n

theorem truncateChars_append_of_lt (hle : Utf8.length a ≤ max) (hlt : max < Utf8.length a + width c) :
    truncateChars max (a ++ c :: b) = a := by
  obtain ⟨n, rfl⟩ := Nat.exists_eq_add_of_le hle
  rw [truncateChars_append, truncateChars_of_lt (by omega), List.append_nil]

/-- **As much of a text is shown as fits.** -/
theorem isLongestFit_truncateChars (max : Nat) (cs : List Char) : IsLongestFit max cs (truncateChars max cs) := by
  by_cases h : Utf8.length cs ≤ max
  · rw [truncateChars_of_length_le h]
    exact ⟨List.prefix_rfl, h, fun q hq _ => hq⟩
  · obtain ⟨a, c, b, rfl, hle, hlt⟩ := Utf8.exists_of_lt_length (Nat.lt_of_not_le h)
    rw [truncateChars_append_of_lt hle hlt]
    exact isLongestFit_of_append hle hlt

/-! ## A body that was cut -/

/-- The limit falls before the last byte of a character of four bytes. -/
def LacksLastByte (max : Nat) (cs : List Char) : Prop :=
  ∃ a c b, cs = a ++ c :: b ∧ width c = 4 ∧ max = Utf8.length a + 3

theorem lacksLastByte_append_iff (hle : Utf8.length a ≤ max) (hlt : max < Utf8.length a + width c) :
    LacksLastByte max (a ++ c :: b) ↔ max = Utf8.length a + 3 := by
  constructor
  · rintro ⟨a', c', b', heq, hwidth, hmax⟩
    have hfit : IsLongestFit max (a ++ c :: b) a' := heq ▸ isLongestFit_of_append (by omega) (by omega)
    rw [hmax, hfit.unique (isLongestFit_of_append hle hlt)]
  · intro hmax
    have := Utf8.width_le c
    exact ⟨a, c, b, rfl, by omega, hmax⟩

theorem width_replacement : width replacement = 3 := by decide

/-- What is shown of a text whose bytes were cut behind `a`, at `c` or before it. -/
theorem bodyChars_take (hle : Utf8.length a ≤ max) (hlt : max < Utf8.length a + width c) :
    bodyChars ((Utf8.encode (a ++ c :: b)).take max) (Utf8.length (a ++ c :: b)) max =
      if max = Utf8.length a + 3 then a ++ [replacement] ++ omitted (Utf8.length (a ++ c :: b) - max)
      else a ++ omitted (Utf8.length (a ++ c :: b) - Utf8.length a) := by
  have hcut : ((Utf8.encode (a ++ c :: b)).take max).length < Utf8.length (a ++ c :: b) := by
    simp only [List.length_take, Utf8.length_encode, Utf8.length_append, Utf8.length_cons]
    omega
  simp only [bodyChars, Utf8.lossyChars_take hle hlt, hcut, or_true, if_true]
  by_cases hboundary : Utf8.length a = max
  · have hne : max ≠ Utf8.length a + 3 := by omega
    rw [if_pos hboundary, if_neg hne, truncateChars_of_length_le (by omega)]
  by_cases hmax : max = Utf8.length a + 3
  · have hlen : Utf8.length (a ++ [replacement]) = max := by simp [width_replacement, hmax]
    rw [if_neg hboundary, if_pos hmax, truncateChars_of_length_le (Nat.le_of_eq hlen), hlen]
  · have := Utf8.width_le c
    have hlt' : max < Utf8.length a + width replacement := by rw [width_replacement]; omega
    rw [if_neg hboundary, if_neg hmax, truncateChars_append_of_lt hle hlt']

/-! ## Exactness -/

/-- What should be shown of a text: all of it if it fits, and otherwise as much as fits and how many bytes are left. -/
def IsExact (max : Nat) (cs : List Char) (shown : String) : Prop :=
  if Utf8.length cs ≤ max then shown = String.ofList cs
  else ∃ p, IsLongestFit max cs p ∧ shown = String.ofList (p ++ omitted (Utf8.length cs - Utf8.length p))

theorem replacement_not_mem_omitted (n : Nat) : replacement ∉ omitted n := by
  intro h
  rw [omitted, List.mem_append, List.mem_append] at h
  rcases h with (h | h) | h
  · exact absurd h (by decide)
  · exact absurd (Numeral.isDigit_of_mem_digits h) (by decide)
  · exact absurd h (by decide)

theorem isExact_of_append_iff {shown : List Char} (hle : Utf8.length a ≤ max) (hlt : max < Utf8.length a + width c) :
    IsExact max (a ++ c :: b) (String.ofList shown) ↔
      shown = a ++ omitted (Utf8.length (a ++ c :: b) - Utf8.length a) := by
  have hfit := isLongestFit_of_append (b := b) hle hlt
  have hlong : ¬Utf8.length (a ++ c :: b) ≤ max := by
    simp only [Utf8.length_append, Utf8.length_cons]
    omega
  rw [IsExact, if_neg hlong]
  constructor
  · rintro ⟨p, hp, hshown⟩
    obtain rfl := hp.unique hfit
    exact String.ofList_injective hshown
  · intro hshown
    exact ⟨a, hfit, congrArg String.ofList hshown⟩

/-- The preview of a text that has passed a tap. -/
theorem body_observe (max : Nat) (cs : List Char) : let t := (Http.Tap.ofLimit max).observe (Utf8.encode cs)
    body t.preview t.total max = String.ofList (bodyChars ((Utf8.encode cs).take max) (Utf8.length cs) max) := by
  simp [Http.Tap.observe, Http.Tap.ofLimit, body, Utf8.length_encode]

theorem bodyChars_encode (h : Utf8.length cs ≤ max) :
    bodyChars ((Utf8.encode cs).take max) (Utf8.length cs) max = cs := by
  have htake : (Utf8.encode cs).take max = Utf8.encode cs := List.take_of_length_le (by rwa [Utf8.length_encode])
  simp [bodyChars, htake, Utf8.lossyChars_encode, truncateChars_of_length_le h, Utf8.length_encode]

/-- **The preview of a text is exact, unless three bytes of a character of four are kept.**  Then U+FFFD stands in its
place, and its three bytes count as shown. -/
theorem isExact_body_iff {segments : List (List UInt8)} (h : Utf8.decode segments.flatten = some cs) (max : Nat) :
    let t := segments.foldl Http.Tap.observe (Http.Tap.ofLimit max)
    (IsExact max cs (body t.preview t.total max) ↔ ¬LacksLastByte max cs) ∧
      (LacksLastByte max cs → body t.preview t.total max =
        String.ofList (truncateChars max cs ++ [replacement] ++ omitted (Utf8.length cs - max))) := by
  intro t
  have hshown : body t.preview t.total max =
      String.ofList (bodyChars ((Utf8.encode cs).take max) (Utf8.length cs) max) := by
    rw [← body_observe, Utf8.encode_of_decode h, ← Http.Tap.foldl_observe]
  rw [hshown]
  by_cases hfits : Utf8.length cs ≤ max
  · have hwhole : ¬LacksLastByte max cs := by
      rintro ⟨a, c, b, rfl, hwidth, hmax⟩
      simp only [Utf8.length_append, Utf8.length_cons] at hfits
      omega
    rw [bodyChars_encode hfits]
    exact ⟨iff_of_true (by simp [IsExact, hfits]) hwhole, fun hlacks => absurd hlacks hwhole⟩
  · obtain ⟨a, c, b, rfl, hle, hlt⟩ := Utf8.exists_of_lt_length (Nat.lt_of_not_le hfits)
    rw [lacksLastByte_append_iff hle hlt, isExact_of_append_iff hle hlt, bodyChars_take hle hlt,
      truncateChars_append_of_lt hle hlt]
    by_cases hmax : max = Utf8.length a + 3
    · have hdiffers : replacement :: omitted (Utf8.length (a ++ c :: b) - max) ≠
          omitted (Utf8.length (a ++ c :: b) - Utf8.length a) := fun heq =>
        replacement_not_mem_omitted _ (heq ▸ List.mem_cons_self)
      simpa [hmax] using hdiffers
    · simp [hmax]

/-- The second character of this text takes four bytes, and one of them is kept. -/
theorem isExact_body_one_of_four : Utf8.decode [[0xE6, 0x97], [0xA5, 0xF0, 0x9F, 0x98, 0x80]].flatten = some "日😀".toList ∧
    let t := [[0xE6, 0x97], [0xA5, 0xF0, 0x9F, 0x98, 0x80]].foldl Http.Tap.observe (Http.Tap.ofLimit 4)
    body t.preview t.total 4 = "日... (4 more bytes)" ∧ IsExact 4 "日😀".toList (body t.preview t.total 4) := by
  have hread : Utf8.decode [[0xE6, 0x97], [0xA5, 0xF0, 0x9F, 0x98, 0x80]].flatten = some "日😀".toList := by decide
  have hlacks : ¬LacksLastByte 4 "日😀".toList := fun h =>
    absurd ((lacksLastByte_append_iff (a := ['日']) (c := '😀') (b := []) (by decide) (by decide)).1 h) (by decide)
  exact ⟨hread, by decide +kernel, (isExact_body_iff hread 4).1.2 hlacks⟩

/-- The first three of four bytes are shown as U+FFFD and one byte as left, instead of none shown and four left. -/
theorem not_isExact_body_three_of_four : Utf8.decode [[0xF0, 0x9F, 0x98, 0x80]].flatten = some "😀".toList ∧
    let t := [[0xF0, 0x9F, 0x98, 0x80]].foldl Http.Tap.observe (Http.Tap.ofLimit 3)
    body t.preview t.total 3 = "\uFFFD... (1 more bytes)" ∧ ¬IsExact 3 "😀".toList (body t.preview t.total 3) := by
  have hshown : body [0xF0, 0x9F, 0x98] 4 3 = String.ofList ("\uFFFD... (1 more bytes)".toList) := by decide +kernel
  refine ⟨by decide, hshown, ?_⟩
  have hexact : IsExact 3 "😀".toList (String.ofList "\uFFFD... (1 more bytes)".toList) ↔
      "\uFFFD... (1 more bytes)".toList = omitted 4 :=
    isExact_of_append_iff (a := []) (b := []) (c := '😀') (by decide) (by decide)
  exact fun h => absurd (hexact.1 (hshown ▸ h)) (by decide)

end Preview
end SearchTelemetry
