/-!
# LetterCase — ASCII letters in either case

Names on the wire are compared without regard to the case of ASCII letters; every other character stands for itself.
-/
namespace SearchTelemetry
namespace LetterCase

/-- A text with its ASCII letters in lower case. -/
def lower (s : String) : String :=
  String.ofList (s.toList.map Char.toLower)

/-- Two texts that differ at most in the case of ASCII letters. -/
def same (a b : String) : Bool :=
  lower a == lower b

end LetterCase
end SearchTelemetry
