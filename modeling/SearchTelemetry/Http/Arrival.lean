import SearchTelemetry.Http.Content
import SearchTelemetry.Http.Head
import SearchTelemetry.Http.Rendered
import SearchTelemetry.Http.Status
/-!
# Http.Arrival — a response as it arrives

The tool waits for one whole response.  Interim heads in front of it are passed over.  Header names are shown in lower
case, with the values of one name together, and the status is shown with its registered words.
-/
namespace SearchTelemetry
namespace Http

/-- What has come of a response. -/
inductive Arrival where
  | waiting
  | whole (response : Response)
  /-- Its head will not come whole. -/
  | refused
  /-- Its body will not come whole. -/
  | brokenOff
deriving DecidableEq, Repr

namespace Arrival

/-- The longest head of a response. -/
def maxHead : Nat := 417792

/-- The headers of other names. -/
def others (name : String) (hs : List Header) : List Header :=
  hs.filter fun h => h.1 ≠ name

/-- Headers with the values of one name together, where the name first stands. -/
def gathered : List Header → List Header
  | [] => []
  | h :: hs => (h :: hs.filter fun x => x.1 = h.1) ++ gathered (others h.1 hs)
termination_by hs => hs.length
decreasing_by exact Nat.lt_succ_of_le (List.length_filter_le _ _)

/-- Headers as they are shown. -/
def shownHeaders (headers : List Header) : List Header :=
  gathered (headers.map fun h => (String.ofList (h.1.toList.map Char.toLower), h.2))

/-- A response with this head and this content. -/
def response (parts : Syntax.ResponseParts) (content : List UInt8) : Response :=
  { version := "HTTP/1." ++ Numeral.text parts.minor
    status := parts.status
    reason := Status.phrase parts.status
    headers := shownHeaders parts.headers
    body := content }

/-- What has come of the response to a request with this method. -/
def read (method : String) (s : Source) : Arrival :=
  match _ : ResponseHead.read maxHead method s with
  | .closed | .quiet => waiting
  | .refused _ => refused
  | .message head rest =>
    if head.isInterim then read method rest
    else
      match Body.read head.framing rest with
      | .whole content _ => whole (response head.parts content)
      | .waiting => waiting
      | .broken _ => brokenOff
termination_by s.size
decreasing_by exact ResponseHead.size_read ‹_›

end Arrival
end Http
end SearchTelemetry
