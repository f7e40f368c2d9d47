import SearchTelemetry.Http.Status
import SearchTelemetry.Http.Url
import SearchTelemetry.Instant.HttpDate
import SearchTelemetry.Service
/-!
# Http.Wire — messages as bytes

A message that a program makes up itself gives the length of its body.  A request names the server; an answer has its date
and, where the other side might think otherwise, says whether the connection goes on.
-/
namespace SearchTelemetry
namespace Http
namespace Wire

/-- A head: its first line, and a line for each header. -/
def head (start : String) (headers : List (String × String)) : List UInt8 :=
  Utf8.bytes (start ++ "\r\n" ++ String.join (headers.map fun h => h.1 ++ ": " ++ h.2 ++ "\r\n") ++ "\r\n")

/-- The header that gives the length of a body. -/
def lengthHeader (body : List UInt8) : String × String :=
  ("content-length", Numeral.text body.length)

/-- The host of a server as requests name it. -/
def host (server : SocketAddress) : String :=
  ((url server "").drop "http://".length).toString

/-- A request to a server. -/
def request (server : SocketAddress) (r : Request) : List UInt8 :=
  let body := r.body.getD []
  head (r.method ++ " " ++ r.path ++ " HTTP/1.1")
      (r.headers ++ [("accept", "*/*"), ("host", host server)] ++ (if r.body.isSome then [lengthHeader body] else []))
    ++ body

/-- What the head of an answer says of the connection: to a client of version 1.0 that it goes on, to others that it
ends. -/
def connectionHeaders (minor : Nat) (close : Bool) : List (String × String) :=
  if minor = 0 then (if close then [] else [("connection", "keep-alive")])
  else if close then [("connection", "close")] else []

/-- The first line of an answer. -/
def statusLine (minor status : Nat) : String :=
  "HTTP/1." ++ Numeral.text minor ++ " " ++ Numeral.text status ++ " " ++ Status.phrase status

/-- An answer to a request with this method and minor version.  To `HEAD` only its head is sent. -/
def answer (now : Instant) (method : String) (minor : Nat) (close : Bool) (a : Answer) : List UInt8 :=
  head (statusLine minor a.status)
      ([("content-type", a.contentType), lengthHeader a.body] ++ connectionHeaders minor close
        ++ [("date", now.httpDate)])
    ++ (if method = "HEAD" then [] else a.body)

/-- The answer to a request that cannot be read, after which the connection ends. -/
def refusal (now : Instant) (status : Nat) : List UInt8 :=
  head (statusLine 1 status) [("connection", "close"), lengthHeader [], ("date", now.httpDate)]

end Wire
end Http
end SearchTelemetry
