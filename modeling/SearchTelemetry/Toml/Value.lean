/-!
# Toml.Value — what a settings file holds

A file is a table: fields with names, each name once.  A table remembers how it came to be, for that decides who may
still add to it: a table written in one piece is complete, one that only a longer name brought about can grow.
-/
namespace SearchTelemetry
namespace Toml

/-- How a table came to be. -/
inductive Origin where
  /-- Written between braces. -/
  | inline
  /-- Named by a header of its own. -/
  | header
  /-- Brought about by the header of a table inside it. -/
  | implied
  /-- Brought about by a dotted key. -/
  | dotted
deriving DecidableEq, Repr

/-- A value of a settings file.  Numbers with a fraction and instants are kept as they are written. -/
inductive Value where
  | string (s : String)
  | integer (i : Int)
  | real (written : String)
  | boolean (b : Bool)
  | instant (written : String)
  | array (items : List Value)
  | table (origin : Origin) (fields : List (String × Value))
  /-- The tables that headers in double brackets list, the last one first. -/
  | tables (latest : List (String × Value)) (earlier : List (List (String × Value)))
deriving Inhabited

/-- The fields of a table. -/
abbrev Fields := List (String × Value)

namespace Fields

/-- Puts a value in the place of the one that stands under a name, or behind all others. -/
def put (name : String) (v : Value) : Fields → Fields
  | [] => [(name, v)]
  | (n, w) :: rest => if n = name then (n, v) :: rest else (n, w) :: put name v rest

/-- Whether a table may take further fields from a longer name whose own tables come to be by `way`: a dotted key only
adds to what dotted keys and inner headers brought about, a header to every table but one between braces. -/
def mayGrow (way own : Origin) : Bool :=
  match way with
  | .dotted => own = .dotted || own = .implied
  | _ => own ≠ .inline

/-- Changes the table that a path of names leads to.  Tables on the way that are not there come to be by `way`; of listed
tables the latest is meant. -/
def changeAt (way : Origin) (change : Origin → Fields → Option Fields) :
    (path : List String) → (own : Origin) → Fields → Option Fields
  | [], own, fields => change own fields
  | name :: path, _, fields =>
    match fields.lookup name with
    | none => (changeAt way change path way []).map fun inner => fields ++ [(name, .table way inner)]
    | some (.table own inner) =>
      if mayGrow way own then
        (changeAt way change path own inner).map fun inner => fields.put name (.table own inner)
      else none
    | some (.tables latest earlier) =>
      (changeAt way change path .header latest).map fun latest => fields.put name (.tables latest earlier)
    | some _ => none

/-- Adds a field that is not there yet. -/
def add (name : String) (v : Value) (fields : Fields) : Option Fields :=
  match fields.lookup name with
  | none => some (fields ++ [(name, v)])
  | some _ => none

/-- Adds a field under a dotted key, given as the path before its last name and that name.  The last table of the path must
be one that dotted keys brought about. -/
def addDotted (path : List String) (name : String) (v : Value) (fields : Fields) : Option Fields :=
  changeAt .dotted (fun own inner => if path = [] ∨ own = .dotted then inner.add name v else none) path .header fields

/-- Opens the table of a header: a new one, or one that was only implied so far. -/
def openTable (name : String) (fields : Fields) : Option Fields :=
  match fields.lookup name with
  | none => some (fields ++ [(name, .table .header [])])
  | some (.table .implied inner) => some (fields.put name (.table .header inner))
  | some _ => none

/-- Opens one more of the listed tables of a header. -/
def openListed (name : String) (fields : Fields) : Option Fields :=
  match fields.lookup name with
  | none => some (fields ++ [(name, .tables [] [])])
  | some (.tables latest earlier) => some (fields.put name (.tables [] (latest :: earlier)))
  | some _ => none

end Fields

/-- The table between braces that holds fields under dotted keys. -/
def Value.ofPairs? (pairs : List ((List String × String) × Value)) : Option Value :=
  (pairs.foldl (fun (acc : Option Fields) ((path, name), v) => acc.bind (Fields.addDotted path name v)) (some [])).map
    (Value.table .inline)

end Toml
end SearchTelemetry
