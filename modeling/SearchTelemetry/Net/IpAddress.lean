import SearchTelemetry.Text.Numeral
/-!
# IpAddress — addresses of hosts

A version 4 address is four octets, written in decimal with dots between.  A version 6 address is eight groups of sixteen
bits, written in hexadecimal with colons between; the first of the longest runs of two or more zero groups is written
`::`, and an address that embeds a version 4 address behind `::ffff:` shows it in decimal.

A reader takes an address off the front of a text and returns what follows it (`Ipv4.take?`, `Ipv6.take?`).  It reads
more than is written: a `::` anywhere, for any number of groups, zeros in front of a group, and a version 4 address for
the last two groups.
-/
namespace SearchTelemetry

/-- A version 4 address. -/
structure Ipv4 where
  a : UInt8
  b : UInt8
  c : UInt8
  d : UInt8
deriving DecidableEq, Repr

/-- A version 6 address. -/
structure Ipv6 where
  groups : List UInt16
  length_groups : groups.length = 8
deriving DecidableEq, Repr

/-- The address of a host. -/
inductive IpAddress where
  | v4 (address : Ipv4)
  | v6 (address : Ipv6)
deriving DecidableEq, Repr

/-! ## Writing -/

namespace Ipv4

/-- The four octets with dots between. -/
def chars (x : Ipv4) : List Char :=
  Numeral.digits x.a.toNat ++ '.' :: Numeral.digits x.b.toNat ++ '.' :: Numeral.digits x.c.toNat
    ++ '.' :: Numeral.digits x.d.toNat

/-- The address as the last two groups of a version 6 address. -/
def groups (x : Ipv4) : List UInt16 :=
  [x.a.toUInt16 * 256 + x.b.toUInt16, x.c.toUInt16 * 256 + x.d.toUInt16]

/-- The address that two groups hold. -/
def ofGroups (high low : UInt16) : Ipv4 :=
  ⟨(high / 256).toUInt8, high.toUInt8, (low / 256).toUInt8, low.toUInt8⟩

/-- The host itself, 127.0.0.1. -/
def loopback : Ipv4 :=
  ⟨127, 0, 0, 1⟩

end Ipv4

namespace Ipv6

/-- Groups with colons between. -/
def groupChars (gs : List UInt16) : List Char :=
  [':'].intercalate (gs.map fun g => Numeral.hexDigits g.toNat)

/-- How many zero groups a list begins with. -/
def zerosAhead (gs : List UInt16) : Nat :=
  (gs.takeWhile (· = 0)).length

/-- Where the longest run of zero groups begins, counted from `offset`, and how long it is; the first one of equals. -/
def longestZeros (offset : Nat) : List UInt16 → Nat × Nat
  | [] => (offset, 0)
  | g :: gs =>
    let later := longestZeros (offset + 1) gs
    if later.2 ≤ zerosAhead (g :: gs) then (offset, zerosAhead (g :: gs)) else later

/-- The version 4 address that a mapped address embeds. -/
def mapped? (x : Ipv6) : Option Ipv4 :=
  match x.groups with
  | [0, 0, 0, 0, 0, 0xffff, high, low] => some (.ofGroups high low)
  | _ => none

/-- The groups in hexadecimal, the first of the longest runs of two or more zero groups written `::`. -/
def hexChars (x : Ipv6) : List Char :=
  let (start, count) := longestZeros 0 x.groups
  if 1 < count then
    groupChars (x.groups.take start) ++ [':', ':'] ++ groupChars (x.groups.drop (start + count))
  else groupChars x.groups

/-- The text of a version 6 address. -/
def chars (x : Ipv6) : List Char :=
  match x.mapped? with
  | some v4 => [':', ':', 'f', 'f', 'f', 'f', ':'] ++ v4.chars
  | none => x.hexChars

end Ipv6

/-! ## Reading -/

namespace Ipv4

/-- An octet at the front of a text: one to three decimal digits, no zero in front, at most 255. -/
def takeOctet? (cs : List Char) : Option (UInt8 × List Char) :=
  let ds := cs.takeWhile Numeral.isDigit
  let n := Nat.ofDigitChars 10 ds 0
  if ds.isEmpty ∨ 3 < ds.length ∨ (ds.head? = some '0' ∧ 1 < ds.length) ∨ 255 < n then none
  else some (UInt8.ofNat n, cs.drop ds.length)

/-- An octet behind a dot. -/
def takeNextOctet? : List Char → Option (UInt8 × List Char)
  | '.' :: cs => takeOctet? cs
  | _ => none

/-- A version 4 address at the front of a text, and what follows it. -/
def take? (cs : List Char) : Option (Ipv4 × List Char) :=
  (takeOctet? cs).bind fun (a, cs) =>
    (takeNextOctet? cs).bind fun (b, cs) =>
      (takeNextOctet? cs).bind fun (c, cs) =>
        (takeNextOctet? cs).map fun (d, cs) => (⟨a, b, c, d⟩, cs)

end Ipv4

namespace Ipv6

/-- A hexadecimal digit, of either letter case. -/
def isHexDigit (c : Char) : Bool :=
  (Numeral.hexValue? c).isSome

/-- A group at the front of a text: one to four hexadecimal digits. -/
def takeGroup? (cs : List Char) : Option (UInt16 × List Char) :=
  let ds := cs.takeWhile isHexDigit
  if 4 < ds.length then none
  else (Numeral.hexDigits? ds).map fun n => (UInt16.ofNat n, cs.drop ds.length)

/-- What stands behind the colon that separates a group from the one before; the first group has none. -/
def behindSeparator? (first : Bool) (cs : List Char) : Option (List Char) :=
  if first then some cs
  else match cs with
    | ':' :: cs => some cs
    | _ => none

/-- Groups taken off a text: whether a version 4 address stands for the last two, and what follows them. -/
structure Groups where
  groups : List UInt16
  embedded : Bool
  rest : List Char
deriving DecidableEq, Repr

/-- As many groups as stand at the front of a text, at most `room`.  A version 4 address counts as two, and ends them. -/
def takeGroups : (room : Nat) → (first : Bool) → List Char → Groups
  | 0, _, cs => ⟨[], false, cs⟩
  | room + 1, first, cs =>
    match behindSeparator? first cs with
    | none => ⟨[], false, cs⟩
    | some behind =>
      match if 0 < room then Ipv4.take? behind else none with
      | some (v4, rest) => ⟨v4.groups, true, rest⟩
      | none =>
        match takeGroup? behind with
        | none => ⟨[], false, cs⟩
        | some (g, rest) =>
          let more := takeGroups room false rest
          { more with groups := g :: more.groups }

/-- The address of eight groups. -/
def ofGroups? (gs : List UInt16) : Option Ipv6 :=
  if h : gs.length = 8 then some ⟨gs, h⟩ else none

/-- A version 6 address at the front of a text, and what follows it: eight groups, or fewer around a `::` that stands for
at least one zero group. -/
def take? (cs : List Char) : Option (Ipv6 × List Char) :=
  let head := takeGroups 8 true cs
  if head.groups.length = 8 then (ofGroups? head.groups).map fun x => (x, head.rest)
  else if head.embedded then none
  else
    match head.rest with
    | ':' :: ':' :: behind =>
      let tail := takeGroups (7 - head.groups.length) true behind
      let zeros := List.replicate (8 - head.groups.length - tail.groups.length) 0
      (ofGroups? (head.groups ++ zeros ++ tail.groups)).map fun x => (x, tail.rest)
    | _ => none

end Ipv6

namespace IpAddress

/-- The text of an address. -/
def chars : IpAddress → List Char
  | v4 x => x.chars
  | v6 x => x.chars

/-- The text of an address. -/
def text (x : IpAddress) : String :=
  String.ofList x.chars

/-- The address that a text is, if it is one and nothing else. -/
def read? (s : String) : Option IpAddress :=
  let whole {α : Type} (taken : Option (α × List Char)) : Option α :=
    taken.bind fun (x, rest) => if rest.isEmpty then some x else none
  match Ipv4.take? s.toList with
  | some taken => (whole (some taken)).map v4
  | none => (whole (Ipv6.take? s.toList)).map v6

/-- What is said of a text that is no address. -/
def notAnAddress : String :=
  "invalid IP address syntax"

end IpAddress
end SearchTelemetry
