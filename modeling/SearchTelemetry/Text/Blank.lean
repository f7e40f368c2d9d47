/-!
# Blank — white space at the ends of a text

`isBlank` is Unicode's White_Space property; `trim` takes such characters off both ends.  Bytes have a narrower notion:
`isBlankByte` holds of the five ASCII blanks that may stand around a JSON body or a journal line.
-/
namespace SearchTelemetry
namespace Blank

/-- Unicode's White_Space. -/
def isBlank (c : Char) : Bool :=
  let n := c.toNat
  (0x9 ≤ n && n ≤ 0xD) || n == 0x20 || n == 0x85 || n == 0xA0 || n == 0x1680 || (0x2000 ≤ n && n ≤ 0x200A)
    || n == 0x2028 || n == 0x2029 || n == 0x202F || n == 0x205F || n == 0x3000

/-- The text without blanks in front. -/
def trimStart (cs : List Char) : List Char :=
  cs.dropWhile isBlank

/-- The text without the characters at its end of which `p` holds. -/
def trimEndWhile (p : Char → Bool) (cs : List Char) : List Char :=
  (cs.reverse.dropWhile p).reverse

/-- The text without blanks behind. -/
def trimEnd (cs : List Char) : List Char :=
  trimEndWhile isBlank cs

/-- The text without blanks at either end. -/
def trim (cs : List Char) : List Char :=
  trimEnd (trimStart cs)

/-- The string without blanks at either end. -/
def trimString (s : String) : String :=
  String.ofList (trim s.toList)

/-- A string with nothing in it but blanks. -/
def isAllBlank (s : String) : Bool :=
  s.toList.all isBlank

/-- An ASCII blank: space, tab, line feed, form feed or carriage return. -/
def isBlankByte (b : UInt8) : Bool :=
  b == 0x20 || b == 0x09 || b == 0x0A || b == 0x0C || b == 0x0D

/-- What is taken off the end of a text are characters of the kind, and none of them stands last in what is left. -/
theorem exists_of_trimEndWhile (p : Char → Bool) (cs : List Char) : ∃ back, cs = trimEndWhile p cs ++ back ∧
    (∀ c ∈ back, p c = true) ∧ ∀ c ∈ (trimEndWhile p cs).getLast?, p c = false := by
  refine ⟨(cs.reverse.takeWhile p).reverse, ?_, fun c hc => ?_, fun c hc => ?_⟩
  · rw [trimEndWhile, ← List.reverse_append, List.takeWhile_append_dropWhile, List.reverse_reverse]
  · exact List.all_eq_true.1 List.all_takeWhile c (List.mem_reverse.1 hc)
  · rw [trimEndWhile, List.getLast?_reverse] at hc
    have hhead := List.head?_dropWhile_not p cs.reverse
    rwa [hc] at hhead

end Blank
end SearchTelemetry
