import SearchTelemetry.Toml.Statement
/-!
# Toml.Document — the table that statements build

Settings go to the table of the last header before them, or to the file's own table.  A file whose statements contradict
each other, such as two values for one key, is refused as a whole.
-/
namespace SearchTelemetry
namespace Toml

/-- A file while its statements are taken in: what it holds so far, and the path of the last header. -/
structure Document where
  fields : Fields
  path : List String

namespace Document

/-- Takes one statement in. -/
def take (doc : Document) : Statement → Option Document
  | .setting (path, name) v =>
    (Fields.changeAt .implied (fun _ fs => fs.addDotted path name v) doc.path .header doc.fields).map fun fields =>
      { doc with fields }
  | .header (path, name) =>
    (Fields.changeAt .implied (fun _ fs => fs.openTable name) path .header doc.fields).map fun fields =>
      ⟨fields, path ++ [name]⟩
  | .listHeader (path, name) =>
    (Fields.changeAt .implied (fun _ fs => fs.openListed name) path .header doc.fields).map fun fields =>
      ⟨fields, path ++ [name]⟩

/-- The table that statements build. -/
def build? (statements : List Statement) : Option Fields :=
  (statements.foldl (fun (doc : Option Document) st => doc.bind (·.take st)) (some ⟨[], []⟩)).map (·.fields)

end Document

/-- The mark of the byte order that a file may begin with. -/
def byteOrderMark : Char := '\uFEFF'

/-- The table that a text holds. -/
def fields? (text : String) : Option Fields :=
  let cs := match text.toList with
    | [] => []
    | c :: cs => if c = byteOrderMark then cs else c :: cs
  (statements? cs).bind Document.build?

end Toml
end SearchTelemetry
