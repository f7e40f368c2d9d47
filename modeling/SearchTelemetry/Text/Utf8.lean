/-!
# Utf8 — text as bytes and bytes as text

Text is a list of characters; on the wire it is bytes.  `encode` writes the bytes, `decode` reads them back and refuses
what no text encodes, `lossy` reads any bytes and puts U+FFFD for each part that cannot begin a character.

Both readers run one machine, a byte at a time (`first`, `next`).  A malformed part ends at the first byte that rules it
out, and that byte is looked at again as the start of the next character.
-/
namespace SearchTelemetry
namespace Utf8

/-! ## Writing -/

/-- The bytes of one character: one to four, the first telling how many. -/
def encodeChar (c : Char) : List UInt8 :=
  let n := c.toNat
  if n < 0x80 then [n.toUInt8]
  else if n < 0x800 then [(0xC0 + n / 64).toUInt8, (0x80 + n % 64).toUInt8]
  else if n < 0x10000 then
    [(0xE0 + n / 4096).toUInt8, (0x80 + n / 64 % 64).toUInt8, (0x80 + n % 64).toUInt8]
  else
    [(0xF0 + n / 262144).toUInt8, (0x80 + n / 4096 % 64).toUInt8, (0x80 + n / 64 % 64).toUInt8,
      (0x80 + n % 64).toUInt8]

/-- The bytes of a text, character after character. -/
def encode (cs : List Char) : List UInt8 :=
  cs.flatMap encodeChar

/-- The bytes of a string. -/
def bytes (s : String) : List UInt8 :=
  encode s.toList

/-- How many bytes a character takes. -/
def width (c : Char) : Nat :=
  if c.toNat < 0x80 then 1 else if c.toNat < 0x800 then 2 else if c.toNat < 0x10000 then 3 else 4

/-- How many bytes a text takes. -/
def length (cs : List Char) : Nat :=
  cs.foldr (fun c n => width c + n) 0

/-! ## Reading -/

/-- A character begun: `owed` more bytes, the next one from `low` to `high`, and the bits read so far. -/
structure Partial where
  owed : Nat
  low : UInt8
  high : UInt8
  code : Nat

/-- What one more byte leads to. -/
inductive Step where
  /-- A whole character. -/
  | char (c : Char)
  /-- A character begun and not yet whole. -/
  | more (p : Partial)
  /-- No character has these bytes. -/
  | bad

/-- The first byte of a character.  The second byte's range is narrower after 0xE0, 0xED, 0xF0 and 0xF4, which keeps out
over-long forms, surrogates and numbers past the last code point. -/
def first (b : UInt8) : Step :=
  if b < 0x80 then .char (Char.ofNat b.toNat)
  else if b < 0xC2 then .bad
  else if b < 0xE0 then .more ⟨1, 0x80, 0xBF, b.toNat % 32⟩
  else if b < 0xF0 then
    .more ⟨2, if b = 0xE0 then 0xA0 else 0x80, if b = 0xED then 0x9F else 0xBF, b.toNat % 16⟩
  else if b < 0xF5 then
    .more ⟨3, if b = 0xF0 then 0x90 else 0x80, if b = 0xF4 then 0x8F else 0xBF, b.toNat % 8⟩
  else .bad

/-- A further byte of a character begun. -/
def next (p : Partial) (b : UInt8) : Step :=
  if p.low ≤ b ∧ b ≤ p.high then
    if p.owed ≤ 1 then .char (Char.ofNat (p.code * 64 + b.toNat % 64))
    else .more ⟨p.owed - 1, 0x80, 0xBF, p.code * 64 + b.toNat % 64⟩
  else .bad

/-- The strict reader's loop, over the characters read so far in reverse. -/
def decodeLoop : Option Partial → List Char → List UInt8 → Option (List Char)
  | none, acc, [] => some acc.reverse
  | some _, _, [] => none
  | none, acc, b :: bs =>
    match first b with
    | .char c => decodeLoop none (c :: acc) bs
    | .more p => decodeLoop (some p) acc bs
    | .bad => none
  | some p, acc, b :: bs =>
    match next p b with
    | .char c => decodeLoop none (c :: acc) bs
    | .more q => decodeLoop (some q) acc bs
    | .bad => none

/-- The text that the bytes encode, if there is one. -/
def decode (bs : List UInt8) : Option (List Char) :=
  decodeLoop none [] bs

/-- The string that the bytes encode, if there is one. -/
def string? (bs : List UInt8) : Option String :=
  (decode bs).map String.ofList

/-- What stands for bytes that are no character. -/
def replacement : Char := Char.ofNat 0xFFFD

/-- The lossy reader's loop, over the characters read so far in reverse. -/
def lossyLoop : Option Partial → List Char → List UInt8 → List Char
  | none, acc, [] => acc.reverse
  | some _, acc, [] => (replacement :: acc).reverse
  | none, acc, b :: bs =>
    match first b with
    | .char c => lossyLoop none (c :: acc) bs
    | .more p => lossyLoop (some p) acc bs
    | .bad => lossyLoop none (replacement :: acc) bs
  | some p, acc, b :: bs =>
    match next p b with
    | .char c => lossyLoop none (c :: acc) bs
    | .more q => lossyLoop (some q) acc bs
    | .bad =>
      match first b with
      | .char c => lossyLoop none (c :: replacement :: acc) bs
      | .more q => lossyLoop (some q) (replacement :: acc) bs
      | .bad => lossyLoop none (replacement :: replacement :: acc) bs

/-- The text of any bytes, with U+FFFD for each part that is none. -/
def lossyChars (bs : List UInt8) : List Char :=
  lossyLoop none [] bs

/-- The string of any bytes, with U+FFFD for each part that is no text. -/
def lossy (bs : List UInt8) : String :=
  String.ofList (lossyChars bs)

/-! ## Laws of the writer -/

@[simp] theorem encode_nil : encode [] = [] := rfl

@[simp] theorem encode_cons (c : Char) (cs : List Char) : encode (c :: cs) = encodeChar c ++ encode cs := rfl

@[simp] theorem encode_append (a b : List Char) : encode (a ++ b) = encode a ++ encode b := by
  simp [encode]

theorem length_encodeChar (c : Char) : (encodeChar c).length = width c := by
  unfold encodeChar width
  dsimp only
  repeat' split
  all_goals rfl

theorem length_encode (cs : List Char) : (encode cs).length = length cs := by
  induction cs with
  | nil => rfl
  | cons c cs ih =>
    rw [encode_cons, List.length_append, length_encodeChar, ih]
    simp [length]

end Utf8
end SearchTelemetry
