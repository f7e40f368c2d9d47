import SearchTelemetry.Json.Value
import SearchTelemetry.Text.Utf8
/-!
# Json.Printer — values as text

The text is compact: no blank is written outside strings, so that a value never spans two lines.  Inside a string only
the quote, the backslash and the controls below U+0020 are escaped.
-/
namespace SearchTelemetry
namespace Json

/-- Doubles are positional up to sixteen places behind the first digit and with up to four zeros before it. -/
def doubleLayout : Binary64.Layout := ⟨16, 5⟩

/-- One character as it stands inside a string. -/
def escapeChar (c : Char) : List Char :=
  if c = '"' then ['\\', '"']
  else if c = '\\' then ['\\', '\\']
  else if 0x20 ≤ c.toNat then [c]
  else if c.toNat = 0x08 then ['\\', 'b']
  else if c.toNat = 0x09 then ['\\', 't']
  else if c.toNat = 0x0A then ['\\', 'n']
  else if c.toNat = 0x0C then ['\\', 'f']
  else if c.toNat = 0x0D then ['\\', 'r']
  else ['\\', 'u', '0', '0', Numeral.hexDigit (c.toNat / 16), Numeral.hexDigit (c.toNat % 16)]

/-- A string in quotes. -/
def stringChars (s : String) : List Char :=
  '"' :: s.toList.flatMap escapeChar ++ ['"']

/-- A number. -/
def Number.chars : Number → List Char
  | .integer i => Numeral.intDigits i
  | .double x => x.chars doubleLayout

mutual

/-- A value. -/
def Value.chars : Value → List Char
  | .null => ['n', 'u', 'l', 'l']
  | .bool true => ['t', 'r', 'u', 'e']
  | .bool false => ['f', 'a', 'l', 's', 'e']
  | .number n => n.chars
  | .string s => stringChars s
  | .array [] => ['[', ']']
  | .array (v :: vs) => '[' :: v.chars ++ itemsChars vs
  | .object [] => ['{', '}']
  | .object ((k, v) :: fs) => '{' :: stringChars k ++ ':' :: v.chars ++ fieldsChars fs

/-- The further items of an array, to its end. -/
def itemsChars : List Value → List Char
  | [] => [']']
  | v :: vs => ',' :: v.chars ++ itemsChars vs

/-- The further fields of an object, to its end. -/
def fieldsChars : List (String × Value) → List Char
  | [] => ['}']
  | (k, v) :: fs => ',' :: stringChars k ++ ':' :: v.chars ++ fieldsChars fs

end

/-- A value as a string. -/
def Value.text (v : Value) : String :=
  String.ofList v.chars

/-- A value as bytes. -/
def Value.bytes (v : Value) : List UInt8 :=
  Utf8.encode v.chars

end Json
end SearchTelemetry
