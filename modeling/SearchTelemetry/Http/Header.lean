import SearchTelemetry.Text.Blank
import SearchTelemetry.Text.LetterCase
/-!
# Http.Header — header lines by name

A head has a list of headers, of which several may have one name; names differ in more than letter case.  Several headers
treat their value as a list with commas in it: `elements` gives the parts, over all values of a name in order.
-/
namespace SearchTelemetry
namespace Http

/-- A header line: its name and the text of its value. -/
abbrev Header := String × String

namespace Header

/-- The values of a name, in order. -/
def values (headers : List Header) (name : String) : List String :=
  (headers.filter fun h => LetterCase.same h.1 name).map (·.2)

/-- The parts of a text between its commas; a text without a comma is one part. -/
def splitComma : List Char → List (List Char)
  | [] => [[]]
  | c :: cs =>
    if c = ',' then [] :: splitComma cs
    else
      match splitComma cs with
      | [] => [[c]]
      | part :: parts => (c :: part) :: parts

/-- The parts between commas, without the blanks around them, over all values of a name in order. -/
def elements (headers : List Header) (name : String) : List String :=
  (values headers name).flatMap fun v => (splitComma v.toList).map fun part => String.ofList (Blank.trim part)

/-- A text without a comma has one part. -/
theorem splitComma_of_not_mem (cs : List Char) (h : ',' ∉ cs) : splitComma cs = [cs] := by
  induction cs with
  | nil => rfl
  | cons c cs ih =>
    have hc : c ≠ ',' := fun e => h (e ▸ List.mem_cons_self)
    simp [splitComma, hc, ih fun hm => h (List.mem_cons_of_mem _ hm)]

/-- A text has at least one part. -/
theorem splitComma_ne_nil (cs : List Char) : splitComma cs ≠ [] := by
  cases cs with
  | nil => simp [splitComma]
  | cons c cs =>
    rw [splitComma]
    split
    · exact List.cons_ne_nil _ _
    · split <;> exact List.cons_ne_nil _ _

/-- A comma separates: the parts of what stands before it, then the parts of what stands behind it. -/
theorem splitComma_append (a b : List Char) : splitComma (a ++ ',' :: b) = splitComma a ++ splitComma b := by
  induction a with
  | nil => simp [splitComma]
  | cons c a ih =>
    by_cases hc : c = ','
    · simp [splitComma, hc, ih]
    · obtain ⟨part, parts, h⟩ := List.exists_cons_of_ne_nil (splitComma_ne_nil a)
      simp [splitComma, hc, ih, h]

end Header
end Http
end SearchTelemetry
