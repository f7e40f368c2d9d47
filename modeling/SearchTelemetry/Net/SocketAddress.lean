import SearchTelemetry.Net.IpAddress
/-!
# SocketAddress — a host and a port

Written as the address, a colon and the port; a version 6 address stands in brackets, with its scope behind a `%` if it
has one.  A port and a scope are read from any number of decimal digits, as long as the value fits.
-/
namespace SearchTelemetry

/-- The address of a host, and a port on it. -/
inductive SocketAddress where
  | v4 (address : Ipv4) (port : UInt16)
  | v6 (address : Ipv6) (scope : UInt32) (port : UInt16)
deriving DecidableEq, Repr

namespace SocketAddress

/-- The address of the host. -/
def ip : SocketAddress → IpAddress
  | v4 x _ => .v4 x
  | v6 x _ _ => .v6 x

/-- The port. -/
def port : SocketAddress → UInt16
  | v4 _ p => p
  | v6 _ _ p => p

/-- The port of a host, without a scope. -/
def ofIp (ip : IpAddress) (port : UInt16) : SocketAddress :=
  match ip with
  | .v4 x => v4 x port
  | .v6 x => v6 x 0 port

/-- The same host at another port. -/
def withPort (port : UInt16) : SocketAddress → SocketAddress
  | v4 x _ => v4 x port
  | v6 x scope _ => v6 x scope port

/-! ## Writing -/

/-- The scope, unless it is zero. -/
def scopeChars (scope : UInt32) : List Char :=
  if scope = 0 then [] else '%' :: Numeral.digits scope.toNat

/-- The text of a socket address. -/
def chars : SocketAddress → List Char
  | v4 x port => x.chars ++ ':' :: Numeral.digits port.toNat
  | v6 x scope port => '[' :: x.chars ++ scopeChars scope ++ ']' :: ':' :: Numeral.digits port.toNat

/-- The text of a socket address. -/
def text (x : SocketAddress) : String :=
  String.ofList x.chars

/-! ## Reading -/

/-- A decimal number below `limit` at the front of a text, and what follows it. -/
def takeNumber? (limit : Nat) (cs : List Char) : Option (Nat × List Char) :=
  let ds := cs.takeWhile Numeral.isDigit
  ((Numeral.unsignedDigits? ds).filter (· < limit)).map fun n => (n, cs.drop ds.length)

/-- A text that is a colon and a port. -/
def port? : List Char → Option UInt16
  | ':' :: cs => (takeNumber? UInt16.size cs).bind fun (n, rest) => if rest.isEmpty then some (UInt16.ofNat n) else none
  | _ => none

/-- A scope at the front of a text, zero if there is none, and what follows it. -/
def takeScope : List Char → UInt32 × List Char
  | '%' :: cs =>
    match takeNumber? UInt32.size cs with
    | some (n, rest) => (UInt32.ofNat n, rest)
    | none => (0, '%' :: cs)
  | cs => (0, cs)

/-- A text that is a version 6 address in brackets and a port. -/
def bracketed? : List Char → Option SocketAddress
  | '[' :: cs =>
    (Ipv6.take? cs).bind fun (x, rest) =>
      match takeScope rest with
      | (scope, ']' :: rest) => (port? rest).map (v6 x scope)
      | _ => none
  | _ => none

/-- The socket address that a text is. -/
def read? (s : String) : Option SocketAddress :=
  match (Ipv4.take? s.toList).bind fun (x, rest) => (port? rest).map (v4 x) with
  | some x => some x
  | none => bracketed? s.toList

/-- What is said of a text that is no socket address. -/
def notAnAddress : String :=
  "invalid socket address syntax"

end SocketAddress
end SearchTelemetry
