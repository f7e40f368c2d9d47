/-!
# Numeral — integers as digits

Decimal numerals are written without leading zeros.  A numeral is read with an optional sign, at least one digit and
nothing else; the reader of each fixed-width kind also refuses what the kind cannot hold.
-/
namespace SearchTelemetry
namespace Numeral

/-- The decimal digits of a natural number. -/
def digits (n : Nat) : List Char :=
  Nat.toDigits 10 n

/-- The decimal text of a natural number. -/
def text (n : Nat) : String :=
  String.ofList (digits n)

/-- The decimal digits of an integer, behind a minus sign if it is below zero. -/
def intDigits (i : Int) : List Char :=
  if i < 0 then '-' :: digits i.natAbs else digits i.natAbs

/-- The decimal text of an integer. -/
def intText (i : Int) : String :=
  String.ofList (intDigits i)

/-- A number in `width` digits, zeros in front. -/
def padded (width n : Nat) : List Char :=
  let ds := digits n
  List.replicate (width - ds.length) '0' ++ ds

/-- An ASCII decimal digit. -/
def isDigit (c : Char) : Bool :=
  '0' ≤ c && c ≤ '9'

/-- The value of a digit in base 16, in either letter case. -/
def hexValue? (c : Char) : Option Nat :=
  if '0' ≤ c ∧ c ≤ '9' then some (c.toNat - '0'.toNat)
  else if 'a' ≤ c ∧ c ≤ 'f' then some (c.toNat - 'a'.toNat + 10)
  else if 'A' ≤ c ∧ c ≤ 'F' then some (c.toNat - 'A'.toNat + 10)
  else none

/-- The digit of a value below 16, in lower case. -/
def hexDigit (n : Nat) : Char :=
  if n < 10 then Char.ofNat ('0'.toNat + n) else Char.ofNat ('a'.toNat + (n - 10))

/-- The lower-case hexadecimal digits of a number. -/
def hexDigits (n : Nat) : List Char :=
  Nat.toDigits 16 n

/-- The number that decimal digits spell, if there is at least one and nothing else. -/
def unsignedDigits? (cs : List Char) : Option Nat :=
  if cs.isEmpty || !cs.all isDigit then none else some (Nat.ofDigitChars 10 cs 0)

/-- The number that hexadecimal digits spell, if there is at least one and nothing else. -/
def hexDigits? (cs : List Char) : Option Nat :=
  if cs.isEmpty then none
  else cs.foldl (fun acc c => acc.bind fun n => (hexValue? c).map (n * 16 + ·)) (some 0)

/-- The numeral without its plus sign, if it has one. -/
def dropPlus : List Char → List Char
  | '+' :: cs => cs
  | cs => cs

/-- The powers of two. -/
def pow2 (n : Nat) : Nat :=
  Nat.pow 2 n

/-- The powers of ten. -/
def pow10 (n : Nat) : Nat :=
  Nat.pow 10 n

/-- The largest value of an unsigned word of `bits` bits. -/
def maxUnsigned (bits : Nat) : Nat :=
  pow2 bits - 1

/-- An unsigned numeral, a plus sign allowed, of at most `bits` bits. -/
def unsigned? (bits : Nat) (cs : List Char) : Option Nat :=
  (unsignedDigits? (dropPlus cs)).filter (· < pow2 bits)

/-- A hexadecimal numeral, a plus sign allowed, of at most `bits` bits. -/
def hex? (bits : Nat) (cs : List Char) : Option Nat :=
  (hexDigits? (dropPlus cs)).filter (· < pow2 bits)

/-- A signed numeral that a 64-bit word holds. -/
def int64? (cs : List Char) : Option Int64 :=
  let value : Option Int :=
    match cs with
    | '-' :: ds => (unsignedDigits? ds).map fun n => -(n : Int)
    | cs => (unsignedDigits? (dropPlus cs)).map fun n => (n : Int)
  (value.filter fun i => Int64.minValue.toInt ≤ i && i ≤ Int64.maxValue.toInt).map Int64.ofInt

/-- The digits of a number spell the number. -/
theorem ofDigitChars_digits (n : Nat) : Nat.ofDigitChars 10 (digits n) 0 = n :=
  Nat.ofDigitChars_toDigits (by decide) (by decide)

end Numeral
end SearchTelemetry
