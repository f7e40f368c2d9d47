import SearchTelemetry.Instant.Basic
import SearchTelemetry.Text.Blank
/-!
# Instant.Reader — instants out of text

Three forms are read.  The strict form is RFC 3339: all fields at their width, a zone that is Z or has hours and minutes
with a colon.  The mail form is RFC 2822: a day of the week or none, the month by name, a zone by name or number, and
comments in brackets behind.  The relaxed form is the strict one with blanks between its parts, shorter fields and years
of any length behind a sign; it reads every text that `Instant.text` writes.
-/
namespace SearchTelemetry
namespace Instant

/-! ## Fields -/

/-- Reads a field of a text. -/
abbrev Field (α : Type) := List Char → Option (α × List Char)

/-- Between `least` and `most` digits. -/
def number (least most : Nat) : Field Nat := fun cs =>
  let ds := (cs.take most).takeWhile Numeral.isDigit
  if ds.length < least then none else some (Nat.ofDigitChars 10 ds 0, cs.drop ds.length)

/-- `least` digits or more, spelling a number below 2^63. -/
def longNumber (least : Nat) : Field Nat := fun cs =>
  let ds := cs.takeWhile Numeral.isDigit
  let n := Nat.ofDigitChars 10 ds 0
  if ds.length < least ∨ Numeral.pow2 63 ≤ n then none else some (n, cs.drop ds.length)

/-- The text behind one given character. -/
def expect (c : Char) : List Char → Option (List Char)
  | d :: cs => if c = d then some cs else none
  | [] => none

/-- The text behind at least one blank. -/
def blanks (cs : List Char) : Option (List Char) :=
  match cs with
  | c :: _ => if Blank.isBlank c then some (Blank.trimStart cs) else none
  | [] => none

/-- The part of a second behind its point, in nanoseconds; digits past the ninth are dropped. -/
def fraction : Field Nat := fun cs => do
  let (n, rest) ← number 1 9 cs
  let used := cs.length - rest.length
  return (n * Numeral.pow10 (9 - used), rest.dropWhile Numeral.isDigit)

/-- The part of a second, if there is a point. -/
def optionalFraction : Field Nat := fun cs =>
  match cs with
  | '.' :: rest => fraction rest
  | _ => some (0, cs)

/-- Two digits, read off where they stand. -/
def twoDigits : List Char → Option (Nat × Nat)
  | a :: b :: _ =>
    if Numeral.isDigit a ∧ Numeral.isDigit b then some (a.toNat - '0'.toNat, b.toNat - '0'.toNat) else none
  | _ => none

/-- The sign of an offset: plus, or minus in either of two characters of which the second may be refused. -/
def offsetSign (longMinus : Bool) : Field Int := fun cs =>
  match cs with
  | c :: rest =>
    if c = '+' then some (1, rest)
    else if c = '-' then some (-1, rest)
    else if longMinus ∧ c.toNat = 0x2212 then some (-1, rest)
    else none
  | [] => none

/-- An offset from UTC in hours and minutes, between which `between` takes what may stand there. -/
def numericOffset (longMinus : Bool) (between : List Char → Option (List Char)) : Field Int := fun cs => do
  let (sign, cs) ← offsetSign longMinus cs
  let (h1, h2) ← twoDigits cs
  let cs ← between (cs.drop 2)
  let (m1, m2) ← twoDigits cs
  guard (m1 ≤ 5)
  return (sign * ((h1 * 10 + h2) * 3600 + (m1 * 10 + m2) * 60 : Nat), cs.drop 2)

/-- An offset from UTC: the letter Z or hours and minutes. -/
def zuluOffset (between : List Char → Option (List Char)) : Field Int := fun cs =>
  match cs with
  | c :: rest => if c = 'Z' ∨ c = 'z' then some (0, rest) else numericOffset true between cs
  | [] => none

/-- The letter between date and time, or one space in its stead. -/
def dateTimeMark : List Char → Option (List Char)
  | c :: cs => if c = 'T' ∨ c = 't' ∨ c = ' ' then some cs else none
  | [] => none

/-! ## The strict form -/

/-- The largest offset that the strict form takes, in seconds. -/
def maxStrictOffset : Int := (23 * 60 + 59) * 60

/-- A date and time in the strict form. -/
def strictCivil : Field Civil := fun cs => do
  let (year, cs) ← number 4 4 cs
  let cs ← expect '-' cs
  let (month, cs) ← number 2 2 cs
  let cs ← expect '-' cs
  let (day, cs) ← number 2 2 cs
  let cs ← dateTimeMark cs
  let (hour, cs) ← number 2 2 cs
  let cs ← expect ':' cs
  let (minute, cs) ← number 2 2 cs
  let cs ← expect ':' cs
  let (second, cs) ← number 2 2 cs
  let (nanos, cs) ← optionalFraction cs
  let (offset, cs) ← zuluOffset (expect ':') cs
  guard (-maxStrictOffset ≤ offset ∧ offset ≤ maxStrictOffset)
  return ({ year, month, day, hour, minute, second, nanos, offset, weekday := none }, cs)

/-- The instant of a text in the strict form. -/
def strict? (cs : List Char) : Option Instant :=
  match strictCivil cs with
  | some (c, []) => ofCivil? c
  | _ => none

/-! ## The mail form -/

/-- The position in a list of the three-letter name that a text begins with, in any letter case. -/
def shortName (names : List String) : Field Nat := fun cs =>
  let name := String.ofList ((cs.take 3).map Char.toLower)
  match names.idxOf? name with
  | some i => some (i, cs.drop 3)
  | none => none

/-- The days of the week. -/
def dayNames : List String := ["mon", "tue", "wed", "thu", "fri", "sat", "sun"]

/-- The months. -/
def monthNames : List String :=
  ["jan", "feb", "mar", "apr", "may", "jun", "jul", "aug", "sep", "oct", "nov", "dec"]

/-- The day of the week and its comma, if the text begins with the name of a day. -/
def optionalWeekday : Field (Option Int) := fun cs =>
  match shortName dayNames cs with
  | none => some (none, cs)
  | some (d, rest) => (expect ',' rest).map fun rest => (some (d : Int), rest)

/-- A year: two digits stand for 1950 to 2049, three digits count from 1900. -/
def mailYear : Field Int := fun cs => do
  let (n, rest) ← longNumber 2 cs
  let digits := cs.length - rest.length
  let year :=
    if digits = 2 then (if n ≤ 49 then n + 2000 else n + 1900)
    else if digits = 3 then n + 1900
    else n
  return (year, rest)

/-- The zones that have names, with their hours ahead of UTC. -/
def zoneNames : List (String × Int) :=
  [("gmt", 0), ("ut", 0), ("z", 0), ("edt", -4), ("est", -5), ("cdt", -5), ("cst", -6), ("mdt", -6), ("mst", -7),
    ("pdt", -7), ("pst", -8)]

/-- An ASCII letter. -/
def isLetter (c : Char) : Bool :=
  ('a' ≤ c && c ≤ 'z') || ('A' ≤ c && c ≤ 'Z')

/-- A zone by name or number.  A single letter other than J, whose meaning was never agreed, is UTC. -/
def mailOffset : Field Int := fun cs =>
  let letters := cs.takeWhile isLetter
  let name := letters.map Char.toLower
  if letters.isEmpty then numericOffset false some cs
  else
    match zoneNames.lookup (String.ofList name) with
    | some hours => some (hours * 3600, cs.drop letters.length)
    | none => if name.length = 1 ∧ name ≠ ['j'] then some (0, cs.drop letters.length) else none

/-- The text behind a comment, of which `depth` brackets are open.  A backslash takes the next character along. -/
def commentLoop : Nat → List Char → Option (List Char)
  | _, [] => none
  | depth, '\\' :: _ :: cs => commentLoop depth cs
  | _, ['\\'] => none
  | depth, '(' :: cs => commentLoop (depth + 1) cs
  | depth, ')' :: cs => if depth ≤ 1 then some cs else commentLoop (depth - 1) cs
  | depth, _ :: cs => commentLoop depth cs

/-- The text behind any number of comments, at most `fuel`. -/
def comments : Nat → List Char → List Char
  | 0, cs => cs
  | fuel + 1, cs =>
    match Blank.trimStart cs with
    | '(' :: rest =>
      match commentLoop 1 rest with
      | some rest => comments fuel rest
      | none => cs
    | _ => cs

/-- The seconds of a time of day, if a colon announces them, and the text behind. -/
def optionalSeconds : Field Nat := fun cs =>
  match Blank.trimStart cs with
  | ':' :: rest => number 2 2 rest
  | _ => some (0, cs)

/-- A date and time in the mail form. -/
def mailCivil : Field Civil := fun cs => do
  let (weekday, cs) ← optionalWeekday (Blank.trimStart cs)
  let (day, cs) ← number 1 2 (Blank.trimStart cs)
  let cs ← blanks cs
  let (month, cs) ← shortName monthNames cs
  let cs ← blanks cs
  let (year, cs) ← mailYear cs
  let cs ← blanks cs
  let (hour, cs) ← number 2 2 cs
  let cs ← expect ':' (Blank.trimStart cs)
  let (minute, cs) ← number 2 2 (Blank.trimStart cs)
  let (second, cs) ← optionalSeconds cs
  let cs ← blanks cs
  let (offset, cs) ← mailOffset cs
  return ({ year, month := month + 1, day, hour, minute, second, nanos := 0, offset, weekday },
    comments cs.length cs)

/-- The instant of a text in the mail form. -/
def mail? (cs : List Char) : Option Instant :=
  match mailCivil cs with
  | some (c, []) => ofCivil? c
  | _ => none

/-- The instant of a text in the strict or the mail form, blanks around it aside. -/
def read? (cs : List Char) : Option Instant :=
  let cs := Blank.trim cs
  match strict? cs with
  | some t => some t
  | none => mail? cs

/-! ## The relaxed form -/

/-- A field of at most `most` digits, behind any blanks. -/
def looseNumber (most : Nat) : Field Nat := fun cs =>
  number 1 most (Blank.trimStart cs)

/-- A year, behind any blanks: at most four digits, or a sign and any number of them. -/
def looseYear : Field Int := fun cs =>
  match Blank.trimStart cs with
  | '-' :: rest => (longNumber 1 rest).map fun (n, r) => (-(n : Int), r)
  | '+' :: rest => (longNumber 1 rest).map fun (n, r) => ((n : Int), r)
  | rest => (number 1 4 rest).map fun (n, r) => ((n : Int), r)

/-- The text behind one given character, behind any blanks. -/
def looseExpect (c : Char) (cs : List Char) : Option (List Char) :=
  expect c (Blank.trimStart cs)

/-- The text behind colons and blanks. -/
def skipColons (cs : List Char) : Option (List Char) :=
  some (cs.dropWhile fun c => c == ':' || Blank.isBlank c)

/-- An offset in the relaxed form: the letters UTC, the letter Z, or hours and minutes. -/
def looseOffset : Field Int := fun cs =>
  if (cs.take 3).map Char.toUpper = ['U', 'T', 'C'] then some (0, cs.drop 3) else zuluOffset skipColons cs

/-- A date and time in the relaxed form. -/
def relaxedCivil : Field Civil := fun cs => do
  let (year, cs) ← looseYear cs
  let cs ← looseExpect '-' cs
  let (month, cs) ← looseNumber 2 cs
  let cs ← looseExpect '-' cs
  let (day, cs) ← looseNumber 2 cs
  let cs ← dateTimeMark cs
  let (hour, cs) ← looseNumber 2 cs
  let cs ← looseExpect ':' cs
  let (minute, cs) ← looseNumber 2 cs
  let cs ← looseExpect ':' cs
  let (second, cs) ← looseNumber 2 cs
  let (nanos, cs) ← optionalFraction cs
  let (offset, cs) ← looseOffset (Blank.trimStart cs)
  return ({ year, month, day, hour, minute, second, nanos, offset, weekday := none }, cs)

/-- The instant of a text in the relaxed form. -/
def relaxed? (cs : List Char) : Option Instant :=
  match relaxedCivil cs with
  | some (c, rest) => if (Blank.trimStart rest).isEmpty then ofCivil? c else none
  | none => none

end Instant
end SearchTelemetry
