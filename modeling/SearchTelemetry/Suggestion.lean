import SearchTelemetry.Text.Blank
import SearchTelemetry.Text.Lowercase
import SearchTelemetry.Text.Numeral
/-!
# Suggestion — how a partly typed query may go on

Suggestions are, in this order, queries reported before that begin like the partial one, the most frequent first; the
partial query with common endings; and numbered variants without end, so that there are always as many as are wanted.
-/
namespace SearchTelemetry
namespace Suggestion

/-! ## History -/

/-- A query that goes on from a needle in lower case, and is not the needle alone. -/
def extends? (needle : List Char) (query : String) : Bool :=
  let lowered := Lowercase.lower query.toList
  needle.isPrefixOf lowered && lowered != needle

/-- The more frequent query first, of equally frequent ones that of lesser characters. -/
def ranksBefore (a b : String × Nat) : Bool :=
  b.2 < a.2 || (a.2 == b.2 && decide (a.1 ≤ b.1))

/-- The queries among these that go on from a partial one, in the order of rank. -/
def history (counts : List (String × Nat)) (partialQuery : String) : List String :=
  let needle := Lowercase.lower (Blank.trim partialQuery.toList)
  ((counts.filter fun c => extends? needle c.1).mergeSort ranksBefore).map (·.1)

/-! ## Endings -/

/-- Common endings. -/
def endings : List String :=
  ["near me", "tutorial", "examples", "for beginners", "best practices", "reddit", "vs alternatives", "meaning"]

/-- The partial query without blanks around it and question marks behind it. -/
def stem (partialQuery : String) : String :=
  String.ofList (Blank.trimEnd (Blank.trimEndWhile (· == '?') (Blank.trim partialQuery.toList)))

/-- A stem with an ending. -/
def join (stem ending : String) : String :=
  if stem.isEmpty then ending else stem ++ " " ++ ending

/-- The stem with a number, the first one 1. -/
def variant (stem : String) (i : Nat) : String :=
  join stem "more" ++ " (" ++ Numeral.text (i + 1) ++ ")"

/-! ## Suggestions -/

/-- So many suggestions for a partial query, from the queries reported before and how often each was. -/
def suggest (counts : List (String × Nat)) (partialQuery : String) (count : Nat) : List String :=
  let past := (history counts partialQuery).take count
  let stem := stem partialQuery
  let known := past ++ (endings.map (join stem)).filter fun s => !past.contains s
  known.take count ++ (List.range (count - known.length)).map (variant stem)

end Suggestion
end SearchTelemetry
