import SearchTelemetry.Decimal.Binary64
import SearchTelemetry.Instant.Basic
import SearchTelemetry.Toml.Value
/-!
# Toml.Scalar — words, numbers and instants

A value without quotes or brackets is a token: it ends where neither a letter, a digit nor one of `+ - . : _` follows.
Underscores may stand between two digits of a number.  An integer has no zeros in front and fits a signed word of 64
bits; in base 2, 8 or 16 it has no sign.  A real has a fraction, an exponent or both, and must not round to infinity
unless it is negative.  An instant is a date, a time, or a date with a time and perhaps an offset from UTC.
-/
namespace SearchTelemetry
namespace Toml
namespace Scalar

/-- A character of a token. -/
def isTokenChar (c : Char) : Bool :=
  c.isAlphanum || c = '+' || c = '-' || c = '.' || c = ':' || c = '_'

/-! ## Numbers -/

/-- The digits of a number without the underscores between them. -/
def digits? (isDigit : Char → Bool) (cs : List Char) : Option (List Char) :=
  if (cs.splitOn '_').all fun part => !part.isEmpty && part.all isDigit then some (cs.filter (· ≠ '_')) else none

/-- The digits of a decimal number without zeros in front. -/
def decimalDigits? (cs : List Char) : Option (List Char) :=
  (digits? Numeral.isDigit cs).filter fun ds => ds.length = 1 || ds.head? ≠ some '0'

/-- A number without its sign, and whether the sign is a minus. -/
def splitSign : List Char → Bool × List Char
  | '-' :: cs => (true, cs)
  | '+' :: cs => (false, cs)
  | cs => (false, cs)

/-- A digit of a base of at most 16. -/
def isDigitOf (base : Nat) (c : Char) : Bool :=
  (Numeral.hexValue? c).any (· < base)

/-- The number that digits of a base spell. -/
def ofDigits (base : Nat) (ds : List Char) : Nat :=
  ds.foldl (fun n c => n * base + (Numeral.hexValue? c).getD 0) 0

/-- The integer that a token is. -/
def integer? (cs : List Char) : Option Int :=
  let inBase (base : Nat) (ds : List Char) : Option Int :=
    (digits? (isDigitOf base) ds).map fun ds => (ofDigits base ds : Int)
  let i : Option Int :=
    match cs with
    | '0' :: 'x' :: ds => inBase 16 ds
    | '0' :: 'o' :: ds => inBase 8 ds
    | '0' :: 'b' :: ds => inBase 2 ds
    | cs =>
      let (negative, ds) := splitSign cs
      (decimalDigits? ds).map fun ds => if negative then -(ofDigits 10 ds : Int) else ofDigits 10 ds
  i.filter fun i => Int64.minValue.toInt ≤ i && i ≤ Int64.maxValue.toInt

/-- Whether digits times a power of ten round to a finite double.  Past a few hundred places the power alone decides. -/
def isFinite (ds : List Char) (exponent : Int) : Bool :=
  let n := ofDigits 10 ds
  let reach : Int := (Numeral.digits n).length + exponent
  if n = 0 ∨ reach < 300 then true
  else if 320 < reach then false
  else
    (if 0 ≤ exponent then Binary64.nearest? (n * Numeral.pow10 exponent.toNat) 1
      else Binary64.nearest? n (Numeral.pow10 exponent.natAbs)).isSome

/-- The exponent behind its letter. -/
def exponent? (cs : List Char) : Option Int :=
  let (negative, ds) := splitSign cs
  (digits? Numeral.isDigit ds).map fun ds => if negative then -(ofDigits 10 ds : Int) else ofDigits 10 ds

/-- Whether a token without its sign is a real: digits with a fraction, an exponent or both, if `finite` not too large. -/
def isReal (finite : Bool) (cs : List Char) : Bool :=
  let isExponentLetter (c : Char) : Bool := c = 'e' || c = 'E'
  let number := cs.takeWhile fun c => !isExponentLetter c
  let whole := number.takeWhile (· ≠ '.')
  let fraction := number.drop whole.length
  let exponent := cs.drop number.length
  if fraction.isEmpty && exponent.isEmpty then false
  else
    match decimalDigits? whole,
      (if fraction.isEmpty then some [] else digits? Numeral.isDigit (fraction.drop 1)),
      (if exponent.isEmpty then some 0 else exponent? (exponent.drop 1)) with
    | some whole, some fraction, some e => !finite || isFinite (whole ++ fraction) (e - fraction.length)
    | _, _, _ => false

/-- Whether a token is a real, infinity or not a number. -/
def isRealToken (cs : List Char) : Bool :=
  let (negative, cs) := splitSign cs
  cs = ['i', 'n', 'f'] || cs = ['n', 'a', 'n'] || isReal (!negative) cs

/-! ## Instants -/

/-- The number that exactly `count` decimal digits spell. -/
def fixed? (count : Nat) (cs : List Char) : Option Nat :=
  if cs.length = count then Numeral.unsignedDigits? cs else none

/-- Whether a text is a date: year, month and day of the calendar. -/
def isDate (cs : List Char) : Bool :=
  match cs.splitOn '-' with
  | [y, m, d] =>
    match fixed? 4 y, fixed? 2 m, fixed? 2 d with
    | some year, some month, some day => 1 ≤ month && month ≤ 12 && 1 ≤ day && day ≤ Instant.daysInMonth year month
    | _, _, _ => false
  | _ => false

/-- Whether a text is an hour and a minute of the day. -/
def isHourMinute (cs : List Char) : Bool :=
  match cs.splitOn ':' with
  | [h, m] => (fixed? 2 h).any (· ≤ 23) && (fixed? 2 m).any (· ≤ 59)
  | _ => false

/-- Whether a text is a second, perhaps with a fraction. -/
def isSecond (cs : List Char) : Bool :=
  (fixed? 2 (cs.take 2)).any (· ≤ 60) &&
    match cs.drop 2 with
    | [] => true
    | '.' :: fraction => !fraction.isEmpty && fraction.all Numeral.isDigit
    | _ => false

/-- Whether a text is a time of the day. -/
def isTime (cs : List Char) : Bool :=
  isHourMinute (cs.take 5) && (cs.drop 5).head? = some ':' && isSecond (cs.drop 6)

/-- Whether a text is a time of the day, perhaps with an offset from UTC. -/
def isOffsetTime (cs : List Char) : Bool :=
  let time := cs.takeWhile fun c => Numeral.isDigit c || c = ':' || c = '.'
  isTime time &&
    match cs.drop time.length with
    | [] | ['Z'] | ['z'] => true
    | sign :: offset => (sign = '+' || sign = '-') && isHourMinute offset

/-- Whether a token is an instant: a date, a time, or both with a letter `T` between. -/
def isInstant (cs : List Char) : Bool :=
  isDate cs || isTime cs ||
    (isDate (cs.take 10) &&
      match cs.drop 10 with
      | t :: time => (t = 'T' || t = 't') && isOffsetTime time
      | [] => false)

/-! ## Tokens -/

/-- The value that a token is. -/
def ofToken? (cs : List Char) : Option Value :=
  if cs = ['t', 'r', 'u', 'e'] then some (.boolean true)
  else if cs = ['f', 'a', 'l', 's', 'e'] then some (.boolean false)
  else
    match integer? cs with
    | some i => some (.integer i)
    | none =>
      if isRealToken cs then some (.real (String.ofList cs))
      else if isInstant cs then some (.instant (String.ofList cs))
      else none

/-- A token at the front of a text, and what follows it.  Between a date and a time a space may stand for the letter. -/
def takeToken (cs : List Char) : List Char × List Char :=
  let token := cs.takeWhile isTokenChar
  let rest := cs.drop token.length
  match rest with
  | ' ' :: behind =>
    let time := behind.takeWhile isTokenChar
    if isDate token && isOffsetTime time then (token ++ 'T' :: time, behind.drop time.length) else (token, rest)
  | _ => (token, rest)

/-- The value of the token at the front of a text, and what follows it. -/
def take? (cs : List Char) : Option (Value × List Char) :=
  let (token, rest) := takeToken cs
  (ofToken? token).map fun v => (v, rest)

end Scalar
end Toml
end SearchTelemetry
