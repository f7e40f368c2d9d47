import SearchTelemetry.Http.Header
import SearchTelemetry.Text.Utf8
/-!
# Http.Syntax — the grammar of message heads

A head is a first line, header lines and an empty line.  Lines end in LF or CRLF; a header line is not continued on the
next line.  Each reader takes what it understands from the front of the bytes and gives back the rest, so that where a
head ends is part of the answer.
-/
namespace SearchTelemetry
namespace Http

/-- What is wrong with a head. -/
inductive HeadFault where
  | token
  | headerName
  | headerValue
  | version
  | newLine
  | status
  | tooManyHeaders
  /-- The bytes end before the head does. -/
  | incomplete
deriving DecidableEq, Repr

/-- What is wrong, in words. -/
def HeadFault.message : HeadFault → String
  | token => "invalid token"
  | headerName => "invalid header name"
  | headerValue => "invalid header value"
  | version => "invalid HTTP version"
  | newLine => "invalid new line"
  | status => "invalid response status"
  | tooManyHeaders => "too many headers"
  | incomplete => "incomplete"

namespace Syntax

/-- A part of a head and the bytes after it. -/
abbrev Parsed (α : Type) := α × List UInt8

/-! ## Classes of bytes -/

/-- Space and tab. -/
def isGap (b : UInt8) : Bool :=
  b == 0x20 || b == 0x09

/-- A byte of a method or of a header name: letters, digits and fifteen marks. -/
def isToken (b : UInt8) : Bool :=
  (0x30 ≤ b && b ≤ 0x39) || (0x41 ≤ b && b ≤ 0x5A) || (0x5E ≤ b && b ≤ 0x7A) || b == 0x21
    || (0x23 ≤ b && b ≤ 0x27) || b == 0x2A || b == 0x2B || b == 0x2D || b == 0x2E || b == 0x7C || b == 0x7E

/-- A byte of a request target: anything but blanks and control characters. -/
def isTarget (b : UInt8) : Bool :=
  (0x21 ≤ b && b ≤ 0x7E) || 0x80 ≤ b

/-- A byte of a header value or of a reason: spaces and tabs too. -/
def isText (b : UInt8) : Bool :=
  b == 0x09 || (0x20 ≤ b && b ≤ 0x7E) || 0x80 ≤ b

/-- ASCII bytes as a string. -/
def ascii (bs : List UInt8) : String :=
  String.ofList (bs.map fun b => Char.ofNat b.toNat)

/-! ## Lines -/

/-- The end of a line. -/
def lineEnd (fault : HeadFault) : List UInt8 → Except HeadFault (Parsed Unit)
  | [] => .error .incomplete
  | 0x0A :: bs => .ok ((), bs)
  | 0x0D :: bs =>
    match bs with
    | [] => .error .incomplete
    | b :: bs => if b = 0x0A then .ok ((), bs) else .error fault
  | _ :: _ => .error fault

/-- The rest behind empty lines. -/
def skipEmpty : List UInt8 → Except HeadFault (List UInt8)
  | [] => .error .incomplete
  | 0x0A :: bs => skipEmpty bs
  | [0x0D] => .error .incomplete
  | 0x0D :: b :: bs => if b = 0x0A then skipEmpty bs else .error .newLine
  | b :: bs => .ok (b :: bs)

/-! ## First lines -/

/-- A method and the space behind it. -/
def method (bs : List UInt8) : Except HeadFault (Parsed String) :=
  match bs.span isToken with
  | (_, []) => .error .incomplete
  | ([], _ :: _) => .error .token
  | (name, b :: rest) => if b = 0x20 then .ok (ascii name, rest) else .error .token

/-- A request target, which must be valid text, and the space behind it. -/
def target (bs : List UInt8) : Except HeadFault (Parsed String) :=
  match bs.span isTarget with
  | (_, []) => .error .incomplete
  | (path, b :: rest) =>
    if b = 0x20 ∧ path ≠ [] then
      match Utf8.string? path with
      | some path => .ok (path, rest)
      | none => .error .token
    else .error .token

/-- What every version begins with. -/
def versionStart : List UInt8 :=
  Utf8.bytes "HTTP/1."

/-- The minor version, where the bytes are to begin with `expected` and then have a digit. -/
def versionLoop : List UInt8 → List UInt8 → Except HeadFault (Parsed Nat)
  | _, [] => .error .incomplete
  | [], b :: bs => if b = 0x30 then .ok (0, bs) else if b = 0x31 then .ok (1, bs) else .error .version
  | e :: expected, b :: bs => if b = e then versionLoop expected bs else .error .version

/-- The minor version. -/
def version (bs : List UInt8) : Except HeadFault (Parsed Nat) :=
  versionLoop versionStart bs

/-- One decimal digit of a status. -/
def statusDigit : List UInt8 → Except HeadFault (Parsed Nat)
  | [] => .error .incomplete
  | b :: bs => if 0x30 ≤ b ∧ b ≤ 0x39 then .ok (b.toNat - 0x30, bs) else .error .status

/-- A status: three digits. -/
def status (bs : List UInt8) : Except HeadFault (Parsed Nat) := do
  let (hundreds, bs) ← statusDigit bs
  let (tens, bs) ← statusDigit bs
  let (ones, bs) ← statusDigit bs
  return (hundreds * 100 + tens * 10 + ones, bs)

/-- A reason, which may be missing, and the end of its line.  A reason that is not ASCII counts as empty. -/
def reason : List UInt8 → Except HeadFault (Parsed String)
  | 0x20 :: bs => do
    let (text, bs) := bs.span isText
    let ((), bs) ← lineEnd .status bs
    return (if text.any (0x80 ≤ ·) then "" else ascii text, bs)
  | bs => do
    let ((), bs) ← lineEnd .status bs
    return ("", bs)

/-- The space between version and status. -/
def space (fault : HeadFault) : List UInt8 → Except HeadFault (Parsed Unit)
  | [] => .error .incomplete
  | b :: bs => if b = 0x20 then .ok ((), bs) else .error fault

/-! ## Header lines -/

/-- A header name and the colon behind it. -/
def name (bs : List UInt8) : Except HeadFault (Parsed String) :=
  match bs.span isToken with
  | (_, []) => .error .incomplete
  | (token, b :: rest) => if b = 0x3A ∧ token ≠ [] then .ok (ascii token, rest) else .error .headerName

/-- A header value without the blanks around it, and the end of its line. -/
def value (bs : List UInt8) : Except HeadFault (Parsed (List UInt8)) := do
  let (text, bs) := (bs.dropWhile isGap).span isText
  let ((), bs) ← lineEnd .headerValue bs
  return ((text.reverse.dropWhile isGap).reverse, bs)

/-- A header line. -/
def header (bs : List UInt8) : Except HeadFault (Parsed Header) := do
  let (name, bs) ← name bs
  let (value, bs) ← value bs
  return ((name, String.ofList (Blank.trim (Utf8.lossyChars value))), bs)

/-- The bytes begin with the end of a line, or at least with its first byte. -/
def atLineEnd : List UInt8 → Bool
  | b :: _ => b == 0x0D || b == 0x0A
  | [] => true

/-- Header lines up to and with the empty line, at most `left` of them behind those in `acc`, which are in reverse. -/
def headersLoop : Nat → List Header → List UInt8 → Except HeadFault (Parsed (List Header))
  | left, acc, bs =>
    if atLineEnd bs then (lineEnd .newLine bs).map fun r => (acc.reverse, r.2)
    else
      match header bs with
      | .error fault => .error fault
      | .ok (h, rest) =>
        match left with
        | 0 => .error .tooManyHeaders
        | left + 1 => headersLoop left (h :: acc) rest

/-- A head has at most so many header lines. -/
def maxHeaders : Nat := 100

/-- Header lines up to and with the empty line. -/
def headers (bs : List UInt8) : Except HeadFault (Parsed (List Header)) :=
  headersLoop maxHeaders [] bs

/-! ## Heads -/

/-- The parts of a request's head. -/
structure RequestParts where
  method : String
  path : String
  minor : Nat
  headers : List Header
deriving DecidableEq, Repr

/-- The parts of a response's head. -/
structure ResponseParts where
  minor : Nat
  status : Nat
  reason : String
  headers : List Header
deriving DecidableEq, Repr

/-- The head of a request. -/
def request (bs : List UInt8) : Except HeadFault (Parsed RequestParts) := do
  let bs ← skipEmpty bs
  let (method, bs) ← method bs
  let (path, bs) ← target bs
  let (minor, bs) ← version bs
  let ((), bs) ← lineEnd .newLine bs
  let (headers, bs) ← headers bs
  return ({ method, path, minor, headers }, bs)

/-- The head of a response. -/
def response (bs : List UInt8) : Except HeadFault (Parsed ResponseParts) := do
  let bs ← skipEmpty bs
  let (minor, bs) ← version bs
  let ((), bs) ← space .version bs
  let (status, bs) ← status bs
  let (reason, bs) ← reason bs
  let (headers, bs) ← headers bs
  return ({ minor, status, reason, headers }, bs)

end Syntax
end Http
end SearchTelemetry
