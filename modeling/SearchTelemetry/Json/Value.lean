import SearchTelemetry.Decimal.Binary64
/-!
# Json.Value — free-form data

A number keeps its kind: an integer that a 64-bit word holds, signed or not, stays an integer, and everything else is a
double.  An object is a list of fields; one that was read has its fields in the order of their names, each name once
(`Fields.ofList`), and one that is about to be written has them in the order in which it declares them.
-/
namespace SearchTelemetry
namespace Json

/-- A number, by its kind. -/
inductive Number where
  /-- An integer from −2^63 to 2^64 − 1. -/
  | integer (i : Int)
  /-- Any other number, rounded to a double. -/
  | double (x : Binary64)
deriving DecidableEq, Repr

/-- A value of the data format. -/
inductive Value where
  | null
  | bool (b : Bool)
  | number (n : Number)
  | string (s : String)
  | array (items : List Value)
  | object (fields : List (String × Value))
deriving Inhabited

/-- The fields of an object. -/
abbrev Fields := List (String × Value)

namespace Fields

/-- Puts a field in its place among fields ordered by name, in the stead of one of the same name. -/
def insert (name : String) (v : Value) : Fields → Fields
  | [] => [(name, v)]
  | (n, w) :: rest =>
    if name < n then (name, v) :: (n, w) :: rest
    else if name = n then (name, v) :: rest
    else (n, w) :: insert name v rest

/-- Fields in the order of their names; of two with one name the later stays. -/
def ofList (fields : List (String × Value)) : Fields :=
  fields.foldl (fun acc f => insert f.1 f.2 acc) []

end Fields

namespace Value

/-- An integer value. -/
def int (i : Int) : Value :=
  .number (.integer i)

/-- A natural number as a value. -/
def nat (n : Nat) : Value :=
  .number (.integer n)

/-- A value, or null where there is none. -/
def ofOption {α : Type} (f : α → Value) : Option α → Value
  | some a => f a
  | none => .null

/-- The string that a value is. -/
def string? : Value → Option String
  | .string s => some s
  | _ => none

/-- The integer that a value is. -/
def int? : Value → Option Int
  | .number (.integer i) => some i
  | _ => none

/-- The items that an array has. -/
def array? : Value → Option (List Value)
  | .array vs => some vs
  | _ => none

/-- The fields that an object has. -/
def object? : Value → Option Fields
  | .object fs => some fs
  | _ => none

/-- A value that may be null, through a reader of the others. -/
def optional? {α : Type} (f : Value → Option α) : Value → Option (Option α)
  | .null => some none
  | v => (f v).map some

/-- The value of a field of an object. -/
def field? (name : String) : Value → Option Value
  | .object fs => fs.lookup name
  | _ => none

/-- The integer that a value is, if a signed 64-bit word holds it. -/
def int64? (v : Value) : Option Int64 :=
  (v.int?.filter fun i => Int64.minValue.toInt ≤ i && i ≤ Int64.maxValue.toInt).map Int64.ofInt

/-- The integer that a value is, if an unsigned word of `bits` bits holds it. -/
def unsigned? (bits : Nat) (v : Value) : Option Nat :=
  (v.int?.filter fun i => 0 ≤ i && i < (Numeral.pow2 bits : Int)).map Int.toNat

end Value
end Json
end SearchTelemetry
