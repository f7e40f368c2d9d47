import SearchTelemetry.Text.Boundary
import SearchTelemetry.Text.Numeral
/-!
# Preview — a bounded view of a message

`truncate` keeps the longest beginning of a text that fits into a number of bytes without cutting a character: it goes back
from the limit to the last boundary and cuts there (`cut?`), which never fails (`isSome_cut?`).  `truncateChars` finds the
same beginning from the front, character after character.  `body` shows the first bytes of a body that way and says how many
bytes are not shown; `head` shows a message head without the blank line that ends it.
-/
namespace SearchTelemetry
namespace Preview

/-- The longest beginning of a text that takes at most `max` bytes, each character whole. -/
def truncateChars (max : Nat) : List Char → List Char
  | [] => []
  | c :: cs => if Utf8.width c ≤ max then c :: truncateChars (max - Utf8.width c) cs else []

/-- A text that is longer than `max` bytes is cut at the last boundary up to there. -/
def cut? (max : Nat) (cs : List Char) : Option (List Char) :=
  if Utf8.length cs ≤ max then some cs else Utf8.front? cs (Utf8.lastBoundary (Utf8.encode cs) max)

theorem isSome_cut? (max : Nat) (cs : List Char) : (cut? max cs).isSome = true := by
  unfold cut?
  split
  · rfl
  · exact Utf8.isSome_front?_lastBoundary cs max

/-- The longest beginning of a string that takes at most `max` bytes, each character whole. -/
def truncate (s : String) (max : Nat) : String :=
  String.ofList ((cut? max s.toList).get (isSome_cut? max s.toList))

/-- What follows a body that is not shown in full. -/
def omitted (n : Nat) : List Char :=
  "... (".toList ++ Numeral.digits n ++ " more bytes)".toList

/-- The first bytes of a body of `total` bytes, in at most `max` bytes of text.  The count of bytes not shown is taken in
bytes of text, so that it is an estimate where the body is not valid text. -/
def bodyChars (bs : List UInt8) (total max : Nat) : List Char :=
  let text := Utf8.lossyChars bs
  let shown := truncateChars max text
  if Utf8.length shown < Utf8.length text ∨ bs.length < total then
    shown ++ omitted (total - Utf8.length shown)
  else shown

/-- `bodyChars` as a string. -/
def body (bs : List UInt8) (total max : Nat) : String :=
  String.ofList (bodyChars bs total max)

/-- A character that ends a line. -/
def isLineEnd (c : Char) : Bool :=
  c == '\r' || c == '\n'

/-- A message head as text, without the line ends at its end. -/
def head (raw : List UInt8) : String :=
  String.ofList ((Utf8.lossyChars raw).reverse.dropWhile isLineEnd).reverse

end Preview
end SearchTelemetry
