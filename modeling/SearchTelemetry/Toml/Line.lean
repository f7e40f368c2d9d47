/-!
# Toml.Line — spaces, comments and line ends

A line ends with a line feed, alone or behind a carriage return, or with the text itself.  Before its end it may have a
comment, which holds any character but a control character other than the tab.
-/
namespace SearchTelemetry
namespace Toml

/-- A space within a line. -/
def isSpace (c : Char) : Bool :=
  c = ' ' || c = '\t'

/-- What stands behind the spaces at the front. -/
def skipSpaces (cs : List Char) : List Char :=
  cs.dropWhile isSpace

/-- A character that a comment may hold. -/
def isLineChar (c : Char) : Bool :=
  c = '\t' || (' ' ≤ c && c ≤ '~') || 0x80 ≤ c.toNat

/-- What stands behind the comment at the front, if there is one. -/
def skipComment : List Char → List Char
  | '#' :: cs => cs.dropWhile isLineChar
  | cs => cs

/-- What stands behind the line break at the front. -/
def behindNewline? : List Char → Option (List Char)
  | '\n' :: cs => some cs
  | '\r' :: '\n' :: cs => some cs
  | _ => none

/-- What stands behind a line break, with spaces and a comment before it. -/
def behindLine? (cs : List Char) : Option (List Char) :=
  behindNewline? (skipComment (skipSpaces cs))

/-- The same where the text may also end instead of the line. -/
def behindLineOrEnd? (cs : List Char) : Option (List Char) :=
  let behind := skipComment (skipSpaces cs)
  if behind.isEmpty then some [] else behindNewline? behind

/-! ## Lengths -/

theorem length_dropWhile_le (p : Char → Bool) (cs : List Char) : (cs.dropWhile p).length ≤ cs.length :=
  (List.dropWhile_sublist p).length_le

theorem length_skipComment_le (cs : List Char) : (skipComment cs).length ≤ cs.length := by
  unfold skipComment
  split
  · have := length_dropWhile_le isLineChar ‹List Char›
    simp only [List.length_cons]
    omega
  · exact Nat.le_refl _

theorem length_behindNewline? {cs rest : List Char} (h : behindNewline? cs = some rest) : rest.length < cs.length := by
  unfold behindNewline? at h
  split at h
  · cases h
    exact Nat.lt_succ_self _
  · cases h
    simp only [List.length_cons]
    omega
  · cases h

theorem length_behindLine? {cs rest : List Char} (h : behindLine? cs = some rest) : rest.length < cs.length := by
  have h₁ := length_behindNewline? h
  have h₂ := length_skipComment_le (skipSpaces cs)
  have h₃ := length_dropWhile_le isSpace cs
  unfold skipSpaces at h₁ h₂
  omega

/-- What stands behind whole lines that hold nothing but spaces and comments, and behind the spaces of the next one. -/
def skipLines (cs : List Char) : List Char :=
  match _ : behindLine? cs with
  | some rest => skipLines rest
  | none => skipSpaces cs
termination_by cs.length
decreasing_by exact length_behindLine? ‹_›

end Toml
end SearchTelemetry
