import DocMapping.Filter.Matching

/-!
# Queries

What a store is asked for: the documents of one collection that match a filter, in an order, without
some at the front and up to a limit, and only some of their elements.  Sorting is stable, a missing
field sorts as null, and the identifier is always among the elements.
-/

namespace DocMapping

inductive SortDirection where
  | ascending
  | descending
deriving DecidableEq

def SortDirection.name : SortDirection → String
  | ascending => "asc"
  | descending => "desc"

/-- An order of documents by one field. -/
structure SortField where
  field : String
  direction : SortDirection
deriving DecidableEq

namespace SortField

/-- What a document is sorted by. -/
def key (s : SortField) (document : Document) : SortKey :=
  ((document.resolve s.field).getD .null).sortKey

def order (s : SortField) (a b : Document) : Ordering :=
  match s.direction with
  | .ascending => (s.key a).order (s.key b)
  | .descending => (s.key b).order (s.key a)

/-- The order by several fields, the first one that differs deciding. -/
def orderBy : List SortField → Document → Document → Ordering
  | [], _, _ => .eq
  | s :: rest, a, b => (s.order a b).then (orderBy rest a b)

/-- The documents in order; equal ones keep the order they had. -/
def documents (sorts : List SortField) (documents : List Document) : List Document :=
  documents.mergeSort fun a b ↦ (orderBy sorts a b).isLE

end SortField

namespace Document

/-- Copies the value at one path, if there is one, into a projection of the document. -/
def projectPath (document projected : Document) (path : String) : Document :=
  match document.resolve path with
  | none => projected
  | some value => (projected.assign value (Text.segments path)).toOption.getD projected

/-- The identifier and the values at the paths. -/
def project (document : Document) (paths : List String) : Document :=
  paths.foldl document.projectPath
    ((document.get? idElement).toList.map fun id ↦ (idElement, id))

end Document

/-- A request for documents of one collection. -/
structure Query where
  filter : Option (Filter Bson)
  sort : List SortField
  offset : Option Nat
  limit : Option Nat
  /-- The paths of the elements that are wanted; without a list, whole documents are. -/
  projection : Option (List String)

namespace Query

/-- The query for every document. -/
def everything : Query := ⟨none, [], none, none, none⟩

def accepts (q : Query) (document : Document) : Bool :=
  match q.filter with
  | some filter => filter.holds document
  | none => true

/-- The documents in the range of offset and limit. -/
def range {α : Type} (q : Query) (items : List α) : List α :=
  let rest := items.drop (q.offset.getD 0)
  match q.limit with
  | some limit => rest.take limit
  | none => rest

def shape (q : Query) (document : Document) : Document :=
  match q.projection with
  | some paths => document.project paths
  | none => document

/-- The answer to the query from the documents of a collection. -/
def select (q : Query) (documents : List Document) : List Document :=
  (q.range (SortField.documents q.sort (documents.filter q.accepts))).map q.shape

/-- The number of documents that the query selects. -/
def count (q : Query) (documents : List Document) : Nat :=
  (q.select documents).length

end Query

end DocMapping
