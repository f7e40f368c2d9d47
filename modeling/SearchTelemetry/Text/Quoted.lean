import SearchTelemetry.Text.Numeral
import SearchTelemetry.Text.Visible
/-!
# Quoted — a text inside a message

Messages that repeat a caller's text put it in double quotes.  A quote or backslash inside gets a backslash, tab, line
feed, carriage return and NUL get their letter, and every other character that is not visible is written `\u{…}` with its
code point in hexadecimal, so that a message stays on one line and shows exactly what was sent.
-/
namespace SearchTelemetry
namespace Quoted

/-- One character as it stands between the quotes. -/
def escapeChar (c : Char) : List Char :=
  if c = '"' then ['\\', '"']
  else if c = '\\' then ['\\', '\\']
  else if c = '\n' then ['\\', 'n']
  else if c = '\r' then ['\\', 'r']
  else if c = '\t' then ['\\', 't']
  else if c.toNat = 0 then ['\\', '0']
  else if Visible.isVisible c then [c]
  else ['\\', 'u', '{'] ++ Numeral.hexDigits c.toNat ++ ['}']

/-- A text between double quotes. -/
def quoteChars (cs : List Char) : List Char :=
  '"' :: cs.flatMap escapeChar ++ ['"']

/-- A string between double quotes. -/
def quote (s : String) : String :=
  String.ofList (quoteChars s.toList)

end Quoted
end SearchTelemetry
