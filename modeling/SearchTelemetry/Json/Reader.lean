import SearchTelemetry.Json.Value
import SearchTelemetry.Text.Utf8
/-!
# Json.Reader — values out of bytes

Every reader takes bytes and gives what it read together with the rest, or nothing where the bytes are malformed.  Two
readers differ in what they ask of a value.  `value` reads it in full: strings must be valid text, numbers must fit, and
brackets nest at most `maxDepth` deep.  `skip` only finds the end of a value whose content nobody wants: it checks the
grammar, keeps a stack of open brackets of its own and so has no limit on their depth.

Recursion is on a fuel that the entry points set to the number of bytes, of which every step takes at least one.
-/
namespace SearchTelemetry
namespace Json
namespace Reader

/-! ## Bytes -/

/-- Bytes that may stand between tokens. -/
def isSpace (b : UInt8) : Bool :=
  b == 0x20 || b == 0x0A || b == 0x0D || b == 0x09

/-- The bytes from the next token on. -/
def skipSpace (bs : List UInt8) : List UInt8 :=
  bs.dropWhile isSpace

/-- A decimal digit. -/
def isDigit (b : UInt8) : Bool :=
  0x30 ≤ b && b ≤ 0x39

/-- The value of a hexadecimal digit, in either letter case. -/
def hexValue? (b : UInt8) : Option Nat :=
  if 0x30 ≤ b ∧ b ≤ 0x39 then some (b.toNat - 0x30)
  else if 0x61 ≤ b ∧ b ≤ 0x66 then some (b.toNat - 0x61 + 10)
  else if 0x41 ≤ b ∧ b ≤ 0x46 then some (b.toNat - 0x41 + 10)
  else none

/-- The bytes behind a given beginning. -/
def after? : List UInt8 → List UInt8 → Option (List UInt8)
  | [], bs => some bs
  | _ :: _, [] => none
  | e :: es, b :: bs => if e = b then after? es bs else none

/-! ## Strings -/

/-- The number that four hexadecimal digits spell. -/
def hex4? (a b c d : UInt8) : Option Nat := do
  let a ← hexValue? a
  let b ← hexValue? b
  let c ← hexValue? c
  let d ← hexValue? d
  return ((a * 16 + b) * 16 + c) * 16 + d

/-- A number that stands for the first half of a pair. -/
def isHighHalf (n : Nat) : Bool :=
  0xD800 ≤ n && n ≤ 0xDBFF

/-- A number that stands for the second half of a pair. -/
def isLowHalf (n : Nat) : Bool :=
  0xDC00 ≤ n && n ≤ 0xDFFF

/-- The character that two halves make. -/
def joinHalves (high low : Nat) : Char :=
  Char.ofNat (0x10000 + (high - 0xD800) * 1024 + (low - 0xDC00))

/-- What a backslash and one letter stand for. -/
def shortEscape? (b : UInt8) : Option UInt8 :=
  if b = 0x22 ∨ b = 0x5C ∨ b = 0x2F then some b
  else if b = 0x62 then some 0x08
  else if b = 0x66 then some 0x0C
  else if b = 0x6E then some 0x0A
  else if b = 0x72 then some 0x0D
  else if b = 0x74 then some 0x09
  else none

/-- The bytes up to the closing quote, an escape replaced by the bytes of its character; `acc` holds them in reverse.
Halves of a pair must come in pairs. -/
def stringLoop (acc : List UInt8) : List UInt8 → Option (List UInt8 × List UInt8)
  | [] => none
  | b :: rest =>
    if b = 0x22 then some (acc.reverse, rest)
    else if b = 0x5C then
      match rest with
      | [] => none
      | e :: rest =>
        if e = 0x75 then
          match rest with
          | h1 :: h2 :: h3 :: h4 :: rest =>
            match hex4? h1 h2 h3 h4 with
            | none => none
            | some n =>
              if isLowHalf n then none
              else if isHighHalf n then
                match rest with
                | s :: u :: l1 :: l2 :: l3 :: l4 :: rest =>
                  if s = 0x5C ∧ u = 0x75 then
                    match hex4? l1 l2 l3 l4 with
                    | none => none
                    | some m =>
                      if isLowHalf m then
                        stringLoop ((Utf8.encodeChar (joinHalves n m)).reverse ++ acc) rest
                      else none
                  else none
                | _ => none
              else stringLoop ((Utf8.encodeChar (Char.ofNat n)).reverse ++ acc) rest
          | _ => none
        else
          match shortEscape? e with
          | none => none
          | some b => stringLoop (b :: acc) rest
    else if b < 0x20 then none
    else stringLoop (b :: acc) rest

/-- A string, behind its opening quote. -/
def string (bs : List UInt8) : Option (String × List UInt8) :=
  match stringLoop [] bs with
  | none => none
  | some (content, rest) => (Utf8.string? content).map (·, rest)

/-- The end of a string whose content nobody wants, behind its opening quote: escapes must be escapes, but halves need no
pairs and the bytes need not be text. -/
def skipString : List UInt8 → Option (List UInt8)
  | [] => none
  | b :: rest =>
    if b = 0x22 then some rest
    else if b = 0x5C then
      match rest with
      | [] => none
      | e :: rest =>
        if e = 0x75 then
          match rest with
          | h1 :: h2 :: h3 :: h4 :: rest =>
            match hex4? h1 h2 h3 h4 with
            | none => none
            | some _ => skipString rest
          | _ => none
        else
          match shortEscape? e with
          | none => none
          | some _ => skipString rest
    else if b < 0x20 then none
    else skipString rest

/-! ## Numbers -/

/-- A numeral taken apart: its sign, the digits before and behind the point, and the exponent. -/
structure Numeral where
  negative : Bool
  whole : List UInt8
  fraction : Option (List UInt8)
  exponent : Option Int

/-- A run of digits and the rest. -/
def digitRun (bs : List UInt8) : List UInt8 × List UInt8 :=
  (bs.takeWhile isDigit, bs.dropWhile isDigit)

/-- The value of a digit. -/
def digitValue (b : UInt8) : Nat :=
  b.toNat - 0x30

/-- The number that a run of digits spells. -/
def digitsValue (ds : List UInt8) : Nat :=
  ds.foldl (fun n d => n * 10 + digitValue d) 0

/-- The part of a numeral behind its point, if it has one: at least one digit. -/
def fraction (bs : List UInt8) : Option (Option (List UInt8) × List UInt8) :=
  match bs with
  | 0x2E :: rest =>
    let (ds, rest) := digitRun rest
    if ds.isEmpty then none else some (some ds, rest)
  | _ => some (none, bs)

/-- The sign in front of an exponent, if there is one. -/
def exponentSign (bs : List UInt8) : Bool × List UInt8 :=
  match bs with
  | b :: rest => if b = 0x2D then (true, rest) else if b = 0x2B then (false, rest) else (false, bs)
  | [] => (false, [])

/-- The exponent of a numeral, if it has one: a sign or none, and at least one digit. -/
def exponent (bs : List UInt8) : Option (Option Int × List UInt8) :=
  match bs with
  | b :: rest =>
    if b = 0x65 ∨ b = 0x45 then
      let (negative, rest) := exponentSign rest
      let (ds, rest) := digitRun rest
      if ds.isEmpty then none
      else some (some (if negative then -(digitsValue ds : Int) else digitsValue ds), rest)
    else some (none, bs)
  | [] => some (none, [])

/-- A numeral.  A zero in front of another digit is malformed. -/
def numeral (bs : List UInt8) : Option (Numeral × List UInt8) :=
  let (negative, bs) :=
    match bs with
    | 0x2D :: rest => (true, rest)
    | _ => (false, bs)
  let (whole, rest) := digitRun bs
  if whole.isEmpty || (whole.head? == some 0x30 && whole.length != 1) then none
  else
    match fraction rest with
    | none => none
    | some (fraction, rest) =>
      match exponent rest with
      | none => none
      | some (exponent, rest) => some (⟨negative, whole, fraction, exponent⟩, rest)

/-- The largest unsigned 64-bit word. -/
def maxWord : Nat := UInt64.size - 1

/-- Takes digits into a number as long as a 64-bit word holds it; gives the digits left over too. -/
def absorb (n : Nat) : List UInt8 → Nat × List UInt8
  | [] => (n, [])
  | d :: ds => if n * 10 + digitValue d ≤ maxWord then absorb (n * 10 + digitValue d) ds else (n, d :: ds)

/-- The number that a numeral denotes; none if it is past the largest double.  Digits that no 64-bit word holds are
dropped and counted, so that a double is made of at most one word of digits. -/
def Numeral.number? (x : Numeral) : Option Number :=
  let (n, dropped) := absorb 0 x.whole
  match x.fraction, x.exponent with
  | none, none =>
    if dropped.isEmpty then
      if !x.negative then some (.integer n)
      else if 0 < n ∧ n ≤ Numeral.pow2 63 then some (.integer (-(n : Int)))
      else (Binary64.ofDecimal? true n 0).map .double
    else (Binary64.ofDecimal? x.negative n dropped.length).map .double
  | fraction, exponent =>
    let ds := fraction.getD []
    let (m, left) := absorb n ds
    let power : Int := (dropped.length : Int) - ((ds.length : Int) - left.length) + exponent.getD 0
    (Binary64.ofDecimal? x.negative m power).map .double

/-- A number. -/
def number (bs : List UInt8) : Option (Number × List UInt8) :=
  match numeral bs with
  | none => none
  | some (x, rest) => x.number?.map (·, rest)

/-! ## Values in full -/

/-- How deep brackets may nest in a value read in full. -/
def maxDepth : Nat := 127

/-- A value that has no parts. -/
def scalar (bs : List UInt8) : Option (Value × List UInt8) :=
  match bs with
  | [] => none
  | b :: rest =>
    if b = 0x22 then (string rest).map fun (s, r) => (.string s, r)
    else if b = 0x2D ∨ isDigit b then (number bs).map fun (n, r) => (.number n, r)
    else if b = 0x6E then (after? [0x75, 0x6C, 0x6C] rest).map (.null, ·)
    else if b = 0x74 then (after? [0x72, 0x75, 0x65] rest).map (.bool true, ·)
    else if b = 0x66 then (after? [0x61, 0x6C, 0x73, 0x65] rest).map (.bool false, ·)
    else none

/-- The name of a field and the colon behind it. -/
def fieldName (bs : List UInt8) : Option (String × List UInt8) :=
  match skipSpace bs with
  | 0x22 :: rest =>
    match string rest with
    | none => none
    | some (name, rest) =>
      match skipSpace rest with
      | 0x3A :: rest => some (name, rest)
      | _ => none
  | _ => none

mutual

/-- A value, with brackets at most `depth` deep. -/
def valueLoop : Nat → Nat → List UInt8 → Option (Value × List UInt8)
  | 0, _, _ => none
  | fuel + 1, depth, bs =>
    match skipSpace bs with
    | 0x5B :: rest =>
      match depth with
      | 0 => none
      | depth + 1 =>
        match skipSpace rest with
        | 0x5D :: rest => some (.array [], rest)
        | rest => (itemsLoop fuel depth [] rest).map fun (vs, r) => (.array vs, r)
    | 0x7B :: rest =>
      match depth with
      | 0 => none
      | depth + 1 =>
        match skipSpace rest with
        | 0x7D :: rest => some (.object [], rest)
        | rest => (fieldsLoop fuel depth [] rest).map fun (fs, r) => (.object (Fields.ofList fs), r)
    | bs => scalar bs

/-- The items of an array to its end, those before them in `acc` in reverse. -/
def itemsLoop : Nat → Nat → List Value → List UInt8 → Option (List Value × List UInt8)
  | 0, _, _, _ => none
  | fuel + 1, depth, acc, bs =>
    match valueLoop fuel depth bs with
    | none => none
    | some (v, rest) =>
      match skipSpace rest with
      | 0x2C :: rest => itemsLoop fuel depth (v :: acc) rest
      | 0x5D :: rest => some ((v :: acc).reverse, rest)
      | _ => none

/-- The fields of an object to its end as they are written, those before them in `acc` in reverse. -/
def fieldsLoop : Nat → Nat → List (String × Value) → List UInt8 → Option (List (String × Value) × List UInt8)
  | 0, _, _, _ => none
  | fuel + 1, depth, acc, bs =>
    match fieldName bs with
    | none => none
    | some (name, rest) =>
      match valueLoop fuel depth rest with
      | none => none
      | some (v, rest) =>
        match skipSpace rest with
        | 0x2C :: rest => fieldsLoop fuel depth ((name, v) :: acc) rest
        | 0x7D :: rest => some (((name, v) :: acc).reverse, rest)
        | _ => none

end

/-- What is read, if nothing but space follows it. -/
def whole {α : Type} : Option (α × List UInt8) → Option α
  | some (a, rest) => if (skipSpace rest).isEmpty then some a else none
  | none => none

/-- The value that the bytes are. -/
def value? (bs : List UInt8) : Option Value :=
  whole (valueLoop (bs.length + 1) maxDepth bs)

/-! ## Values that nobody wants -/

/-- An open bracket: of an array or of an object. -/
inductive Bracket where
  | array
  | object

/-- What is to come next while a value is skipped. -/
inductive Expect where
  /-- A value. -/
  | value
  /-- A field's name. -/
  | name
  /-- What may stand behind a value: a comma or the closing bracket, or nothing more if no bracket is open. -/
  | next

/-- The end of a value without parts. -/
def skipScalar (bs : List UInt8) : Option (List UInt8) :=
  match bs with
  | [] => none
  | b :: rest =>
    if b = 0x22 then skipString rest
    else if b = 0x2D ∨ isDigit b then (numeral bs).map (·.2)
    else if b = 0x6E then after? [0x75, 0x6C, 0x6C] rest
    else if b = 0x74 then after? [0x72, 0x75, 0x65] rest
    else if b = 0x66 then after? [0x61, 0x6C, 0x73, 0x65] rest
    else none

/-- Skips to the end of a value, with the brackets that are open in it. -/
def skipLoop : Nat → Expect → List Bracket → List UInt8 → Option (List UInt8)
  | 0, _, _, _ => none
  | fuel + 1, .value, stack, bs =>
    match skipSpace bs with
    | 0x5B :: rest =>
      match skipSpace rest with
      | 0x5D :: rest => skipLoop fuel .next stack rest
      | rest => skipLoop fuel .value (.array :: stack) rest
    | 0x7B :: rest =>
      match skipSpace rest with
      | 0x7D :: rest => skipLoop fuel .next stack rest
      | rest => skipLoop fuel .name (.object :: stack) rest
    | bs =>
      match skipScalar bs with
      | none => none
      | some rest => skipLoop fuel .next stack rest
  | fuel + 1, .name, stack, bs =>
    match skipSpace bs with
    | 0x22 :: rest =>
      match skipString rest with
      | none => none
      | some rest =>
        match skipSpace rest with
        | 0x3A :: rest => skipLoop fuel .value stack rest
        | _ => none
    | _ => none
  | _ + 1, .next, [], bs => some bs
  | fuel + 1, .next, .array :: stack, bs =>
    match skipSpace bs with
    | 0x2C :: rest => skipLoop fuel .value (.array :: stack) rest
    | 0x5D :: rest => skipLoop fuel .next stack rest
    | _ => none
  | fuel + 1, .next, .object :: stack, bs =>
    match skipSpace bs with
    | 0x2C :: rest => skipLoop fuel .name (.object :: stack) rest
    | 0x7D :: rest => skipLoop fuel .next stack rest
    | _ => none

/-- The bytes behind a value that nobody wants. -/
def skip (bs : List UInt8) : Option (List UInt8) :=
  skipLoop (bs.length + 2) .value [] bs

end Reader
end Json
end SearchTelemetry
