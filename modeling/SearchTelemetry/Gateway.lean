import SearchTelemetry.Text.Numeral
import SearchTelemetry.Text.Utf8
/-!
# Gateway — what the relay answers on its own

The relay writes bytes of its own in one case only: the service behind it cannot be reached, or does not begin to answer
in time.  The answer is a complete message that says how long it is and closes the connection.
-/
namespace SearchTelemetry

/-- Why the service behind the relay gives no answer. -/
inductive Gateway where
  /-- The connection is refused or reset, or closed before the first byte of an answer. -/
  | unreachable (backend reason : String)
  /-- No answer begins within so many milliseconds. -/
  | timeout (backend : String) (afterMillis : Nat)
deriving DecidableEq, Repr

namespace Gateway

/-- The status of the answer. -/
def status : Gateway → Nat
  | unreachable .. => 502
  | timeout .. => 504

/-- The words that go with the status. -/
def reason : Gateway → String
  | unreachable .. => "Bad Gateway"
  | timeout .. => "Gateway Timeout"

/-- What went wrong, in words. -/
def message : Gateway → String
  | unreachable backend why => "upstream " ++ backend ++ " unavailable: " ++ why
  | timeout backend after =>
    "upstream " ++ backend ++ " did not respond within " ++ Numeral.text after ++ "ms"

/-- The body of the answer: the message and a line end. -/
def body (g : Gateway) : List UInt8 :=
  Utf8.bytes (g.message ++ "\n")

/-- The head of the answer. -/
def head (g : Gateway) : String :=
  "HTTP/1.1 " ++ Numeral.text g.status ++ " " ++ g.reason ++ "\r\ncontent-type: text/plain; charset=utf-8"
    ++ "\r\ncontent-length: " ++ Numeral.text g.body.length ++ "\r\nconnection: close\r\n\r\n"

/-- The whole answer. -/
def answer (g : Gateway) : List UInt8 :=
  Utf8.bytes g.head ++ g.body

end Gateway
end SearchTelemetry
