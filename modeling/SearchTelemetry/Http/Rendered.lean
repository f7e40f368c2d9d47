import SearchTelemetry.Text.Blank
import SearchTelemetry.Text.Numeral
import SearchTelemetry.Text.Utf8
/-!
# Http.Rendered — a response as scripts read it

The tool prints a response the way it stood on the wire: the status line, a line for each header, an empty line, the
body.  The status line has no blanks at its end, since a status without a reason would leave one.
-/
namespace SearchTelemetry
namespace Http

/-- A response in full. -/
structure Response where
  version : String
  status : Nat
  reason : String
  headers : List (String × String)
  body : List UInt8
deriving DecidableEq, Repr

namespace Response

/-- The first line of a response. -/
def statusLine (r : Response) : List Char :=
  Blank.trimEnd (r.version.toList ++ ' ' :: Numeral.digits r.status ++ ' ' :: r.reason.toList)

/-- The line of a header. -/
def headerLine (h : String × String) : List Char :=
  h.1.toList ++ ':' :: ' ' :: h.2.toList

/-- The response as text. -/
def renderChars (r : Response) : List Char :=
  r.statusLine ++ '\n' :: r.headers.flatMap (fun h => headerLine h ++ ['\n']) ++ '\n' :: Utf8.lossyChars r.body

/-- The response as a string. -/
def render (r : Response) : String :=
  String.ofList r.renderChars

end Response
end Http
end SearchTelemetry
