import SearchTelemetry.Proofs.Preview
import SearchTelemetry.Proofs.Text.Boundary
/-!
# Preview.Bounded — how much of a text is shown

A text is cut where the search back from the limit stops.  The beginning in front of that boundary is the longest that fits
(`isLongestFit_of_front?`), so that the search from the back and the walk from the front agree (`truncate_eq`).  Of the first
bytes of a body that much of their text is shown, whatever the bytes are, and the bytes left out are counted behind it only
if there are some (`preview_bounded`).
-/
namespace SearchTelemetry
namespace Preview

variable {max : Nat} {cs p : List Char}

/-! ## The cut -/

/-- What is in front of the last boundary up to the limit is the longest beginning that fits. -/
theorem isLongestFit_of_front? (h : Utf8.front? cs (Utf8.lastBoundary (Utf8.encode cs) max) = some p) :
    IsLongestFit max cs p := by
  obtain ⟨hbegins, hlength⟩ := Utf8.front?_eq_some_iff.1 h
  have hstop := (Utf8.isGreatest_lastBoundary (Utf8.encode cs) max).1
  refine ⟨hbegins, hlength ▸ hstop.1, fun q hq hle => Utf8.isPrefix_of_length_le hbegins hq ?_⟩
  rw [hlength]
  exact Utf8.length_le_lastBoundary hq hle

theorem front?_lastBoundary (max : Nat) (cs : List Char) :
    Utf8.front? cs (Utf8.lastBoundary (Utf8.encode cs) max) = some (truncateChars max cs) := by
  obtain ⟨p, hp⟩ := Option.isSome_iff_exists.1 (Utf8.isSome_front?_lastBoundary cs max)
  rw [hp, (isLongestFit_of_front? hp).unique (isLongestFit_truncateChars max cs)]

theorem cut?_eq (max : Nat) (cs : List Char) : cut? max cs = some (truncateChars max cs) := by
  unfold cut?
  split
  · rename_i hfits
    rw [truncateChars_of_length_le hfits]
  · exact front?_lastBoundary max cs

/-- **The search from the back and the walk from the front cut a text alike.** -/
theorem truncate_eq (s : String) (max : Nat) : truncate s max = String.ofList (truncateChars max s.toList) := by
  simp [truncate, cut?_eq]

/-! ## The count of what is left out -/

theorem ofList_omitted_ne_empty (n : Nat) : String.ofList (omitted n) ≠ "" := by
  intro h
  have hnil := congrArg String.toList h
  simp [omitted] at hnil

/-- What is left out of a body is counted behind what is shown, if something is left out. -/
theorem body_eq (bs : List UInt8) (total max : Nat) : let text := Utf8.lossy bs
    let shown := truncate text max
    body bs total max = shown ++
      if (Utf8.bytes shown).length < (Utf8.bytes text).length ∨ bs.length < total then
        String.ofList (omitted (total - (Utf8.bytes shown).length))
      else "" := by
  simp only [body, bodyChars, truncate_eq, Utf8.lossy, Utf8.bytes, String.toList_ofList, Utf8.length_encode]
  split
  · rw [String.ofList_append]
  · rw [String.append_empty]

theorem length_bytes_truncate_lt_iff (s : String) (max : Nat) :
    (Utf8.bytes (truncate s max)).length < (Utf8.bytes s).length ↔ truncate s max ≠ s := by
  have hshorter := Utf8.length_lt_iff_ne (isLongestFit_truncateChars max s.toList).isPrefix
  rw [truncate_eq, Utf8.bytes, Utf8.bytes, String.toList_ofList, Utf8.length_encode, Utf8.length_encode, hshorter,
    ne_eq, ne_eq, ← String.toList_inj, String.toList_ofList]

/-- **A preview is bounded and cut between characters.**  The search back from the limit stops at the last boundary up to
there, having passed over three bytes of the text at most.  There the text can be cut, and what is in front is the longest
beginning that fits.  Of the first bytes of a body, whatever they are, that much of their text is shown, and a count of what
is left out stands behind it if and only if some of that text or of the body is left out. -/
theorem preview_bounded (max : Nat) :
    (∀ s : String, let stop := Utf8.lastBoundary (Utf8.bytes s) max
      IsGreatest {n | n ≤ max ∧ Utf8.isBoundary (Utf8.bytes s) n = true} stop ∧
        min max (Utf8.bytes s).length ≤ stop + 3 ∧
        Utf8.front? s.toList stop = some (truncate s max).toList ∧
        Utf8.bytes (truncate s max) = (Utf8.bytes s).take stop ∧
        IsLongestFit max s.toList (truncate s max).toList) ∧
      ∀ (bs : List UInt8) (total : Nat), let text := Utf8.lossy bs
        let shown := truncate text max
        let count := String.ofList (omitted (total - (Utf8.bytes shown).length))
        (body bs total max = shown ++ count ↔
            (Utf8.bytes shown).length < (Utf8.bytes text).length ∨ bs.length < total) ∧
          (body bs total max = shown ↔ shown = text ∧ total ≤ bs.length) := by
  constructor
  · intro s stop
    have hfront : Utf8.front? s.toList stop = some (truncate s max).toList := by
      rw [truncate_eq, String.toList_ofList]
      exact front?_lastBoundary max s.toList
    obtain ⟨hbegins, hlength⟩ := Utf8.front?_eq_some_iff.1 hfront
    refine ⟨Utf8.isGreatest_lastBoundary _ max, ?_, hfront, ?_, isLongestFit_of_front? hfront⟩
    · rw [Utf8.bytes, Utf8.length_encode]
      exact Utf8.min_le_lastBoundary_add s.toList max
    · rw [← hlength]
      exact (Utf8.take_encode hbegins).symm
  · intro bs total text shown count
    have hbody : body bs total max = shown ++
        if (Utf8.bytes shown).length < (Utf8.bytes text).length ∨ bs.length < total then count else "" :=
      body_eq bs total max
    have hcount : count ≠ "" := ofList_omitted_ne_empty _
    have hlonger : shown ++ count ≠ shown := by simpa using hcount
    have hwhole : shown = text ∧ total ≤ bs.length ↔
        ¬((Utf8.bytes shown).length < (Utf8.bytes text).length ∨ bs.length < total) := by
      rw [length_bytes_truncate_lt_iff text max, not_or, not_not, Nat.not_lt]
    rw [hbody, hwhole]
    by_cases hleft : (Utf8.bytes shown).length < (Utf8.bytes text).length ∨ bs.length < total
    · rw [if_pos hleft]
      exact ⟨iff_of_true rfl hleft, iff_of_false hlonger (not_not_intro hleft)⟩
    · rw [if_neg hleft, String.append_empty]
      exact ⟨iff_of_false hlonger.symm hleft, iff_of_true rfl hleft⟩

/-- A byte that is no text is shown in three, and the count is of what is left of nine then. -/
example : body [0xFF, 0x61] 9 4 = "\uFFFDa... (5 more bytes)" := by decide +kernel

end Preview
end SearchTelemetry
