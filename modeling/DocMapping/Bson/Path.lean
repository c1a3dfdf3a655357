import DocMapping.Bson
import DocMapping.Text.Dotted

/-!
# Paths in Documents

A path names an element of a document, of a document in that element, and so on; arrays are not
entered.  Reading a path and assigning to it walk the same way.  An assignment makes the documents
that are missing on its way and puts them in place of nulls, but never in place of other values.
-/

namespace DocMapping.Document

/-- The stored value at a path. -/
def lookup : Document → List String → Option Bson
  | _, [] => none
  | document, [name] => document.get? name
  | document, name :: rest =>
    match document.get? name with
    | some (.document nested) => lookup nested rest
    | _ => none

/-- The stored value at a path written with dots. -/
def resolve (document : Document) (path : String) : Option Bson :=
  document.lookup (Text.segments path)

/-- An element on the way of an assignment that is neither a document nor null. -/
structure Obstacle where
  element : String
  value : Bson

/-- Puts a value at a path. -/
def assign (value : Bson) : Document → List String → Except Obstacle Document
  | document, [] => .ok document
  | document, [name] => .ok (document.insert name value)
  | document, name :: rest => do
    let nested ←
      match document.get? name with
      | none => .ok []
      | some .null => .ok []
      | some (.document nested) => .ok nested
      | some other => .error ⟨name, other⟩
    return document.insert name (.document (← assign value nested rest))

end DocMapping.Document
