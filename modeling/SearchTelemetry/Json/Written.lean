import SearchTelemetry.Json.Reader
/-!
# Json.Written — records as they are written

A record with known fields is written in one of two forms: an object whose fields have names, in any order, or an array
of the values in the order in which the record declares them.  Of a known name there may be one field only; fields of
other names are ignored, by `lenient?` unread and by `strict?` read in full.
-/
namespace SearchTelemetry
namespace Json

/-- A record as it is written. -/
inductive Written where
  /-- Fields by name, in the order of the text, with those of one name side by side. -/
  | named (fields : List (String × Value))
  /-- Values in the order of declaration. -/
  | listed (values : List Value)

namespace Written

/-- The fields of an object to its end; a field whose name is not known is skipped. -/
def lenientFields (known : List String) :
    Nat → List (String × Value) → List UInt8 → Option (List (String × Value) × List UInt8)
  | 0, _, _ => none
  | fuel + 1, acc, bs =>
    match Reader.fieldName bs with
    | none => none
    | some (name, rest) =>
      let value :=
        if known.contains name then
          (Reader.valueLoop rest.length.succ (Reader.maxDepth - 1) rest).map fun (v, r) => ((name, v) :: acc, r)
        else (Reader.skip rest).map (acc, ·)
      match value with
      | none => none
      | some (acc, rest) =>
        match Reader.skipSpace rest with
        | 0x2C :: rest => lenientFields known fuel acc rest
        | 0x7D :: rest => some (acc.reverse, rest)
        | _ => none

/-- A record out of bytes, through a reader of an object's fields. -/
def read (fields : List UInt8 → Option (List (String × Value) × List UInt8)) (bs : List UInt8) : Option Written :=
  match Reader.skipSpace bs with
  | 0x7B :: rest =>
    match Reader.skipSpace rest with
    | 0x7D :: rest => Reader.whole (some (.named [], rest))
    | rest => Reader.whole ((fields rest).map fun (fs, r) => (.named fs, r))
  | 0x5B :: rest =>
    match Reader.skipSpace rest with
    | 0x5D :: rest => Reader.whole (some (.listed [], rest))
    | rest =>
      Reader.whole ((Reader.itemsLoop rest.length.succ (Reader.maxDepth - 1) [] rest).map fun (vs, r) =>
        (.listed vs, r))
  | _ => none

/-- A record out of bytes; a field whose name is not known may hold anything of the right grammar. -/
def lenient? (known : List String) (bs : List UInt8) : Option Written :=
  read (fun rest => lenientFields known rest.length.succ [] rest) bs

/-- A record out of bytes; every field is read in full. -/
def strict? (bs : List UInt8) : Option Written :=
  read (fun rest => Reader.fieldsLoop rest.length.succ (Reader.maxDepth - 1) [] rest) bs

/-- A record out of a value that has been read. -/
def ofValue? : Value → Option Written
  | .object fs => some (.named fs)
  | .array vs => some (.listed vs)
  | _ => none

/-- No more values than the record has fields. -/
def fits (count : Nat) : Written → Bool
  | .named _ => true
  | .listed vs => vs.length ≤ count

/-- The value of the field that is declared at a position under a name: absent, there once, or nothing if it is there
twice. -/
def field? (position : Nat) (name : String) : Written → Option (Option Value)
  | .named fs =>
    match fs.filter (·.1 == name) with
    | [] => some none
    | [(_, v)] => some (some v)
    | _ => none
  | .listed vs => some vs[position]?

/-- A field with a default for where it is absent. -/
def fieldOr? {α : Type} (w : Written) (position : Nat) (name : String) (default : α) (f : Value → Option α) :
    Option α :=
  match w.field? position name with
  | none => none
  | some none => some default
  | some (some v) => f v

/-- A field that must be there. -/
def required? {α : Type} (w : Written) (position : Nat) (name : String) (f : Value → Option α) : Option α :=
  match w.field? position name with
  | some (some v) => f v
  | _ => none

/-- A field that may be null, or absent where fields have names. -/
def nullable? {α : Type} (w : Written) (position : Nat) (name : String) (f : Value → Option α) :
    Option (Option α) :=
  match w, w.field? position name with
  | _, none => none
  | .named _, some none => some none
  | .listed _, some none => none
  | _, some (some v) => v.optional? f

/-- A record whose kind is told by a field `tag`, or by the first value: the kind and the record without it. -/
def tagged? (tag : String) : Written → Option (String × Written)
  | .named fs =>
    match fs.filter (·.1 == tag) with
    | [(_, .string kind)] => some (kind, .named (fs.filter (·.1 != tag)))
    | _ => none
  | .listed (.string kind :: vs) => some (kind, .listed vs)
  | .listed _ => none

end Written
end Json
end SearchTelemetry
