import SearchTelemetry.Toml.Spelling
/-!
# Toml.Layout — a settings file, line by line

A file that is written has one statement or comment on a line, so that it can be read and changed by hand.
-/
namespace SearchTelemetry
namespace Toml

/-- A line of a file that is written. -/
inductive Line where
  | blank
  | comment (text : String)
  | header (name : String)
  /-- A string, with a remark behind it unless that is empty. -/
  | string (name value remark : String)
  | integer (name : String) (value : Int)
  | boolean (name : String) (value : Bool)
deriving DecidableEq, Repr

namespace Line

/-- A line without its end. -/
def text : Line → String
  | blank => ""
  | comment text => "# " ++ text
  | header name => "[" ++ name ++ "]"
  | string name value remark =>
    name ++ " = " ++ quote value ++ if remark.isEmpty then "" else "  # " ++ remark
  | integer name value => name ++ " = " ++ Numeral.intText value
  | boolean name value => name ++ " = " ++ if value then "true" else "false"

/-- A string that may be missing: the line then shows an example, as a comment. -/
def optional (name : String) (value : Option String) (sample : String) : Line :=
  match value with
  | some v => string name v ""
  | none => comment (name ++ " = " ++ quote sample)

end Line

/-- Lines with their ends. -/
def render (lines : List Line) : String :=
  String.join (lines.map fun l => l.text ++ "\n")

end Toml
end SearchTelemetry
