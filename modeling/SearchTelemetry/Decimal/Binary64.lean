import SearchTelemetry.Text.Numeral
/-!
# Binary64 — double-precision numbers as decimals

A finite double is a sign, a mantissa below 2^53 and a power of two not below 2^-1074.  Arithmetic is exact on fractions
of natural numbers and rounds once, to the nearest double, a half to the even mantissa (`nearest?`).

`ofDecimal?` turns the digits of a numeral into a double the way a fast reader does: the digits as one double, times or
divided by one power of ten, so that two roundings may add up.  `shortest` goes back: the fewest digits that only this
double is nearest to, and of those the nearest to it.
-/
namespace SearchTelemetry

/-- A finite double: `mantissa · 2 ^ exponent`, negated if `negative`. -/
structure Binary64 where
  negative : Bool
  mantissa : Nat
  exponent : Int
deriving DecidableEq, Repr

namespace Binary64

open Numeral (pow2 pow10)

/-! ## Rounding -/

/-- The least power of two of a double. -/
def minExponent : Int := -1074

/-- The greatest power of two of a double. -/
def maxExponent : Int := 971

/-- `n · 2 ^ e` as a fraction of natural numbers. -/
def scaled (n : Nat) (e : Int) : Nat × Nat :=
  if 0 ≤ e then (n * pow2 e.toNat, 1) else (n, pow2 (-e).toNat)

/-- The magnitude nearest to the fraction `num / den`, a half going to the even mantissa; none past the largest double. -/
def nearest? (num den : Nat) : Option (Nat × Int) :=
  if num = 0 then some (0, minExponent)
  else
    let guess : Int := (num.log2 : Int) - den.log2
    let fits : Bool :=
      if 0 ≤ guess then den * pow2 guess.toNat ≤ num else den ≤ num * pow2 (-guess).toNat
    let e : Int := max minExponent (guess - (if fits then 52 else 53))
    let n := if 0 ≤ e then num else num * pow2 (-e).toNat
    let d := if 0 ≤ e then den * pow2 e.toNat else den
    let m := n / d
    let r := n % d
    let up := d < 2 * r ∨ (2 * r = d ∧ m % 2 = 1)
    let m' := if up then m + 1 else m
    let (m'', e') := if m' = pow2 53 then (pow2 52, e + 1) else (m', e)
    if maxExponent < e' then none else some (m'', e')

/-- The product of two magnitudes. -/
def mul? (a b : Nat × Int) : Option (Nat × Int) :=
  let (num, den) := scaled (a.1 * b.1) (a.2 + b.2)
  nearest? num den

/-- The quotient of two magnitudes, the second one not zero. -/
def div? (a b : Nat × Int) : Option (Nat × Int) :=
  let (num, den) := scaled a.1 (a.2 - b.2)
  nearest? num (den * b.1)

/-! ## Reading -/

/-- The largest power of ten that is a double. -/
def maxPowerOfTen : Nat := 308

/-- Divides a magnitude by a power of ten, in steps of at most the largest one that is a double. -/
def divPowerOfTen? : Nat → Nat × Int → Nat → Option (Nat × Int)
  | 0, m, _ => some m
  | fuel + 1, m, e =>
    if e ≤ maxPowerOfTen then (nearest? (pow10 e) 1).bind (div? m)
    else if m.1 = 0 then some m
    else
      ((nearest? (pow10 maxPowerOfTen) 1).bind (div? m)).bind fun m' =>
        divPowerOfTen? fuel m' (e - maxPowerOfTen)

/-- The double for `significand · 10 ^ exponent`; none past the largest double. -/
def ofDecimal? (negative : Bool) (significand : Nat) (exponent : Int) : Option Binary64 :=
  (nearest? significand 1).bind fun m =>
    (if exponent < 0 then divPowerOfTen? (exponent.natAbs / maxPowerOfTen + 1) m exponent.natAbs
      else if exponent ≤ maxPowerOfTen then (nearest? (pow10 exponent.toNat) 1).bind (mul? m)
      else if m.1 = 0 then some m
      else none).map fun (mantissa, e) => ⟨negative, mantissa, e⟩

/-! ## Shortest digits -/

/-- Whether the decimal `d · 10 ^ p` is read back as the double: it lies between the midpoints to the neighbours, or on
one of them if the mantissa is even.  The neighbour below is half as far if the mantissa is the least of its power. -/
def readsBack (x : Binary64) (d : Nat) (p : Int) : Bool :=
  let narrow := x.mantissa = pow2 52 ∧ minExponent < x.exponent
  -- all of it in quarters of the unit in the last place
  let low := 4 * x.mantissa - (if narrow then 1 else 2)
  let high := 4 * x.mantissa + 2
  let e := x.exponent - 2
  let num := d * (if 0 ≤ p then pow10 p.toNat else 1) * (if e < 0 then pow2 (-e).toNat else 1)
  let den := (if 0 ≤ p then 1 else pow10 (-p).toNat) * (if e < 0 then 1 else pow2 e.toNat)
  if x.mantissa % 2 = 0 then low * den ≤ num && num ≤ high * den
  else low * den < num && num < high * den

/-- The magnitude as a fraction. -/
def fraction (x : Binary64) : Nat × Nat :=
  scaled x.mantissa x.exponent

/-- The power of ten of the first digit of a fraction that is not zero: found by stepping from a guess at the binary
logarithms. -/
def leadingPower (num den : Nat) : Int :=
  let guess : Int := ((num.log2 : Int) - den.log2) * 30103 / 100000
  let reaches (p : Int) : Bool :=
    if 0 ≤ p then den * pow10 p.toNat ≤ num else den ≤ num * pow10 (-p).toNat
  if reaches (guess + 1) then guess + 1 else if reaches guess then guess else guess - 1

/-- The multiple of `10 ^ p` next below the fraction, and how far above it the fraction stands, in units of `den`. -/
def gridBelow (num den : Nat) (p : Int) : Nat × Nat × Nat :=
  let n := if 0 ≤ p then num else num * pow10 (-p).toNat
  let d := if 0 ≤ p then den * pow10 p.toNat else den
  (n / d, n % d, d)

/-- Tries `count` digits, then more. -/
def shortestFrom (x : Binary64) (num den : Nat) (lead : Int) : Nat → Nat → Nat × Int
  | 0, count => ((gridBelow num den (lead - count + 1)).1, lead - count + 1)
  | fuel + 1, count =>
    let p := lead - count + 1
    let (d, r, unit) := gridBelow num den p
    let below := 0 < d && readsBack x d p
    let above := readsBack x (d + 1) p
    let nearerBelow := 2 * r < unit || (2 * r = unit && d % 2 = 0)
    if below && (!above || nearerBelow) then (d, p)
    else if above then (d + 1, p)
    else shortestFrom x num den lead fuel (count + 1)

/-- The fewest decimal digits that read back as the double, as a number and its power of ten. -/
def shortest (x : Binary64) : Nat × Int :=
  let (num, den) := fraction x
  shortestFrom x num den (leadingPower num den) 17 1

/-- Takes trailing zeros off a number of at most `fuel` digits, raising its power of ten. -/
def stripZeros : Nat → Nat × Int → Nat × Int
  | 0, dp => dp
  | fuel + 1, (d, p) => if d % 10 = 0 ∧ d ≠ 0 then stripZeros fuel (d / 10, p + 1) else (d, p)

/-! ## Layout -/

/-- How a double is laid out.  A number is positional if its decimal point falls at most `maxBehind` places behind the
first digit or fewer than `maxBefore` zeros before it; otherwise it has an exponent with a sign. -/
structure Layout where
  maxBehind : Nat
  maxBefore : Nat
deriving Repr

/-- The exponent part. -/
def exponentChars (e : Int) : List Char :=
  'e' :: (if e < 0 then '-' else '+') :: Numeral.digits e.natAbs

/-- The magnitude in a layout. -/
def magnitudeChars (layout : Layout) (x : Binary64) : List Char :=
  if x.mantissa = 0 then ['0', '.', '0']
  else
    let (d, k) := stripZeros 18 (shortest x)
    let ds := Numeral.digits d
    let point : Int := ds.length + k
    if 0 ≤ k ∧ point ≤ layout.maxBehind then ds ++ List.replicate k.toNat '0' ++ ['.', '0']
    else if 0 < point ∧ point ≤ layout.maxBehind then ds.take point.toNat ++ '.' :: ds.drop point.toNat
    else if -(layout.maxBefore : Int) < point ∧ point ≤ 0 then
      '0' :: '.' :: List.replicate (-point).toNat '0' ++ ds
    else if ds.length = 1 then ds ++ exponentChars (point - 1)
    else ds.take 1 ++ '.' :: ds.drop 1 ++ exponentChars (point - 1)

/-- The double in a layout, with its sign, that of zero too. -/
def chars (layout : Layout) (x : Binary64) : List Char :=
  if x.negative then '-' :: magnitudeChars layout x else magnitudeChars layout x

end Binary64
end SearchTelemetry
