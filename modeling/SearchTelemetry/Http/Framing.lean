import SearchTelemetry.Fault
import SearchTelemetry.Http.Header
import SearchTelemetry.Text.Numeral
import SearchTelemetry.Text.Quoted
/-!
# Http.Framing — where the body of a message ends

The head decides.  A transfer coding counts before a content length; content lengths must all be the same number; a
request without either has no body, and a response without either runs to the end of the stream.  Some responses never
have a body, whatever their headers say.
-/
namespace SearchTelemetry
namespace Http

/-- How a body is delimited. -/
inductive Framing where
  /-- No body follows. -/
  | empty
  /-- So many bytes follow. -/
  | length (n : Nat)
  /-- Chunks follow, each with its size in front. -/
  | chunked
  /-- The body runs until the sender closes its side. -/
  | untilClose
deriving DecidableEq, Repr

namespace Framing

/-- The last transfer coding that is named is the chunked one. -/
def isChunked (headers : List Header) : Bool :=
  match (Header.elements headers "transfer-encoding").getLast? with
  | some coding => LetterCase.same coding "chunked"
  | none => false

/-- The number of all content lengths, with the number that those before it name. -/
def agreedLength : Option Nat → List String → Except Fault (Option Nat)
  | known, [] => .ok known
  | known, v :: vs =>
    match Numeral.unsigned? 64 v.toList with
    | none => .error (.protocol ("invalid content-length " ++ Quoted.quote v))
    | some n =>
      if known.any (· != n) then .error (.protocol "conflicting content-length headers")
      else agreedLength (some n) vs

/-- The number of all content lengths, if there is any. -/
def contentLength (headers : List Header) : Except Fault (Option Nat) :=
  agreedLength none (Header.values headers "content-length")

/-- How the body of a request with these headers is delimited. -/
def ofRequest (headers : List Header) : Except Fault Framing :=
  if isChunked headers then .ok chunked
  else
    (contentLength headers).map fun
      | none | some 0 => empty
      | some n => length n

/-- Responses to these methods and with these statuses have no body, whatever their headers say. -/
def isBodiless (method : String) (status : Nat) : Bool :=
  LetterCase.same method "HEAD" || (100 ≤ status && status < 200) || status == 204 || status == 304

/-- How the body of a response with these headers is delimited. -/
def ofResponse (method : String) (status : Nat) (headers : List Header) : Except Fault Framing :=
  if isBodiless method status then .ok empty
  else if isChunked headers then .ok chunked
  else
    (contentLength headers).map fun
      | none => untilClose
      | some 0 => empty
      | some n => length n

end Framing

/-! ## The end of a connection -/

/-- The decision to close so far, after each element of the connection headers: an element `close` settles it, an element
`keep-alive` takes it back. -/
def closeAfter : Bool → List String → Bool
  | close, [] => close
  | close, e :: es =>
    if LetterCase.same e "close" then true
    else closeAfter (close && !LetterCase.same e "keep-alive") es

/-- A message of this minor version and with these headers is the last one on its connection. -/
def wantsClose (minor : Nat) (headers : List Header) : Bool :=
  closeAfter (minor == 0) (Header.elements headers "connection")

end Http
end SearchTelemetry
