import SearchTelemetry.Toml.Scalar
import SearchTelemetry.Toml.Text
/-!
# Toml.Statement — the lines of a settings file

A file is a list of statements, each on a line of its own: a key with its value, the header of a table, or the header of
one more of the tables listed under a name.  A key is a name, or several with dots between.  Arrays may run over several
lines and end with a comma; tables between braces may do neither.  Brackets nest at most `maxDepth` deep.
-/
namespace SearchTelemetry
namespace Toml

/-! ## Keys -/

/-- A key: the path of names before its last dot, and the last name. -/
abbrev Key := List String × String

/-- A character of a name without quotes. -/
def isNameChar (c : Char) : Bool :=
  c.isAlphanum || c = '_' || c = '-'

/-- A name at the front of a text, bare or in quotes. -/
def takeName? (cs : List Char) : Option (String × List Char) :=
  match takeLineString? cs with
  | some found => some found
  | none =>
    let name := cs.takeWhile isNameChar
    if name.isEmpty then none else some (String.ofList name, cs.drop name.length)

/-- The greatest number of names of a key. -/
def maxNames : Nat := 79

/-- At most `count` names with dots between, and what follows them and the spaces behind them. -/
def takeNames? : (count : Nat) → List Char → Option (List String × List Char)
  | 0, _ => none
  | count + 1, cs =>
    (takeName? (skipSpaces cs)).bind fun (name, rest) =>
      match skipSpaces rest with
      | '.' :: rest => (takeNames? count rest).map fun (names, rest) => (name :: names, rest)
      | rest => some ([name], rest)

/-- The key that names make. -/
def Key.ofNames? (names : List String) : Option Key :=
  names.getLast?.map fun last => (names.dropLast, last)

/-- A key at the front of a text, and what follows it and the spaces behind it. -/
def takeKey? (cs : List Char) : Option (Key × List Char) :=
  (takeNames? maxNames cs).bind fun (names, rest) => (Key.ofNames? names).map fun key => (key, rest)

/-! ## Values -/

/-- What follows a given character at the front of a text. -/
def behind? (c : Char) : List Char → Option (List Char)
  | d :: cs => if d = c then some cs else none
  | [] => none

/-- The items of an array up to its closing bracket.  `item?` reads one of them. -/
def takeItems? (item? : List Char → Option (Value × List Char)) (cs : List Char) : Option (List Value × List Char) :=
  let start := skipLines cs
  match behind? ']' start with
  | some rest => some ([], rest)
  | none =>
    match item? start with
    | none => none
    | some (v, rest) =>
      match skipLines rest with
      | ',' :: rest =>
        if _ : rest.length < cs.length then
          (takeItems? item? rest).map fun (vs, rest) => (v :: vs, rest)
        else none
      | ']' :: rest => some ([v], rest)
      | _ => none
termination_by cs.length

/-- A key, an equals sign and a value. -/
def takePair? (value? : List Char → Option (Value × List Char)) (cs : List Char) : Option ((Key × Value) × List Char) :=
  (takeKey? cs).bind fun (key, rest) =>
    (behind? '=' rest).bind fun rest =>
      (value? (skipSpaces rest)).map fun (v, rest) => ((key, v), rest)

/-- The pairs of a table between braces, one at least, up to its closing brace. -/
def takePairs? (value? : List Char → Option (Value × List Char)) (cs : List Char) :
    Option (List (Key × Value) × List Char) :=
  match takePair? value? cs with
  | none => none
  | some (pair, rest) =>
    match skipSpaces rest with
    | ',' :: rest =>
      if _ : rest.length < cs.length then
        (takePairs? value? rest).map fun (pairs, rest) => (pair :: pairs, rest)
      else none
    | '}' :: rest => some ([pair], rest)
    | _ => none
termination_by cs.length

/-- How deep brackets and braces nest at most. -/
def maxDepth : Nat := 79

/-- A value at the front of a text whose brackets nest at most `depth` deep, and what follows it. -/
def takeValue? : (depth : Nat) → List Char → Option (Value × List Char)
  | depth, '[' :: cs =>
    match depth with
    | 0 => none
    | depth + 1 => (takeItems? (takeValue? depth) cs).map fun (vs, rest) => (.array vs, rest)
  | depth, '{' :: cs =>
    match depth with
    | 0 => none
    | depth + 1 =>
      match behind? '}' (skipSpaces cs) with
      | some rest => some (.table .inline [], rest)
      | none =>
        (takePairs? (takeValue? depth) cs).bind fun (pairs, rest) => (Value.ofPairs? pairs).map fun v => (v, rest)
  | _, cs =>
    match takeString? cs with
    | some (s, rest) => some (.string s, rest)
    | none => Scalar.take? cs

/-! ## Statements -/

/-- A line of a settings file. -/
inductive Statement where
  /-- A value for a key. -/
  | setting (key : Key) (v : Value)
  /-- The header of a table. -/
  | header (key : Key)
  /-- The header of one more of the tables listed under a name. -/
  | listHeader (key : Key)
deriving Inhabited

/-- A statement at the front of a text, and what follows it. -/
def takeStatement? (cs : List Char) : Option (Statement × List Char) :=
  match cs with
  | '[' :: '[' :: cs =>
    (takeKey? cs).bind fun (key, rest) =>
      ((behind? ']' rest).bind (behind? ']')).map fun rest => (.listHeader key, rest)
  | '[' :: cs =>
    (takeKey? cs).bind fun (key, rest) => (behind? ']' rest).map fun rest => (.header key, rest)
  | cs => (takePair? (takeValue? maxDepth) cs).map fun ((key, v), rest) => (.setting key v, rest)

/-- A line at the front of a text, with the statement on it if there is one. -/
def takeLine? (cs : List Char) : Option (Option Statement × List Char) :=
  match behindLineOrEnd? cs with
  | some rest => some (none, rest)
  | none =>
    (takeStatement? (skipSpaces cs)).bind fun (st, rest) =>
      (behindLineOrEnd? rest).map fun rest => (some st, rest)

/-- The statements of a text. -/
def statements? (cs : List Char) : Option (List Statement) :=
  if cs.isEmpty then some []
  else
    match takeLine? cs with
    | none => none
    | some (st, rest) =>
      if _ : rest.length < cs.length then (statements? rest).map (st.toList ++ ·) else none
termination_by cs.length

end Toml
end SearchTelemetry
