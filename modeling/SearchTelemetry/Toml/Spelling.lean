import SearchTelemetry.Text.Numeral
/-!
# Toml.Spelling — how a string is written

Of the four spellings of a string the first one is taken that shows the text as it is: double quotes, single quotes, three
double quotes, three single quotes.  A text that none of them can show so is written with escapes, between three double
quotes if it has several lines.
-/
namespace SearchTelemetry
namespace Toml

/-- A spelling of a string. -/
inductive Spelling where
  | basic
  | literal
  | basicLines
  | literalLines
deriving DecidableEq, Repr

namespace Spelling

/-! ## What a text asks for -/

/-- A control character that only an escape can show. -/
def needsEscape (c : Char) : Bool :=
  (c.toNat < 0x20 && c ≠ '\t' && c ≠ '\n') || c.toNat = 0x7F

/-- The length of the longest run of a character, `run` of which stand right before the text. -/
def longestRun (c : Char) (run : Nat) : List Char → Nat
  | [] => run
  | d :: ds => if d = c then longestRun c (run + 1) ds else max run (longestRun c 0 ds)

/-- Whether a spelling shows a text as it is. -/
def shows (spelling : Spelling) (cs : List Char) : Bool :=
  !cs.any needsEscape &&
    match spelling with
    | basic => !cs.contains '\\' && !cs.contains '"' && !cs.contains '\n'
    | literal => !cs.contains '\'' && !cs.contains '\n'
    | basicLines => !cs.contains '\\' && longestRun '"' 0 cs ≤ 2
    | literalLines => longestRun '\'' 0 cs ≤ 2

/-- The spelling of a text. -/
def ofText (cs : List Char) : Spelling :=
  match [basic, literal, basicLines, literalLines].find? (·.shows cs) with
  | some spelling => spelling
  | none => if cs.contains '\n' then basicLines else basic

/-! ## Writing -/

/-- Two hexadecimal digits in upper case for a number below 256. -/
def hexPair (n : Nat) : List Char :=
  let digit (d : Nat) : Char := (Numeral.hexDigit d).toUpper
  [digit (n / 16), digit (n % 16)]

/-- A character between double quotes, and how many quotes stand in a row behind it.  A line feed shows itself if the
spelling has several lines; a quote does as long as at most `quotes` stand in a row. -/
def escapeChar (lines : Bool) (quotes run : Nat) (c : Char) : List Char × Nat :=
  if c = '"' then if run < quotes then ([c], run + 1) else (['\\', '"'], 0)
  else if c = '\n' ∧ lines then ([c], 0)
  else
    (if c = '\\' then ['\\', '\\']
      else if c = '\x08' then ['\\', 'b']
      else if c = '\t' then ['\\', 't']
      else if c = '\n' then ['\\', 'n']
      else if c = '\x0c' then ['\\', 'f']
      else if c = '\r' then ['\\', 'r']
      else if needsEscape c then ['\\', 'u', '0', '0'] ++ hexPair c.toNat
      else [c], 0)

/-- A text between double quotes, `run` of which stand in a row right before it. -/
def escape (lines : Bool) (quotes : Nat) : (run : Nat) → List Char → List Char
  | _, [] => []
  | run, c :: cs =>
    let (written, run) := escapeChar lines quotes run c
    written ++ escape lines quotes run cs

/-- The line break that a text with line breaks has behind its opening three quotes. -/
def opening (cs : List Char) : List Char :=
  if cs.contains '\n' then ['\n'] else []

/-- A text in a spelling. -/
def write (spelling : Spelling) (cs : List Char) : List Char :=
  match spelling with
  | basic => '"' :: escape false 0 0 cs ++ ['"']
  | literal => '\'' :: cs ++ ['\'']
  | basicLines => ['"', '"', '"'] ++ opening cs ++ escape true 2 0 cs ++ ['"', '"', '"']
  | literalLines => ['\'', '\'', '\''] ++ opening cs ++ cs ++ ['\'', '\'', '\'']

end Spelling

/-- A string as a settings file has it. -/
def quote (s : String) : String :=
  String.ofList ((Spelling.ofText s.toList).write s.toList)

end Toml
end SearchTelemetry
