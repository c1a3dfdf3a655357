import DocMapping.Codec.Document
import DocMapping.Evaluation
import DocMapping.Query

/-!
# Query Plans

A planned query before its parameters have values.  The selection is what the store is asked for,
the shaper says how each returned document becomes a value, and the terminal what becomes of the
sequence.  A projection maps the places of a shaped value to what is found there; it is kept in the
order of the places.
-/

namespace DocMapping

/-! ## Operands -/

/-- What an operand stands beside, which decides how its value is stored. -/
inductive OperandShape where
  | scalar
  /-- One element of a collection. -/
  | element
  /-- Several values for one field. -/
  | list
deriving DecidableEq

def OperandShape.name : OperandShape → String
  | scalar => "Scalar"
  | element => "Element"
  | list => "List"

/-- An operand of a filter: a stored value, or the value of a parameter as a property stores it. -/
inductive Operand where
  | constant (value : Bson)
  | parameter (name : String) (property : Property) (shape : OperandShape)

namespace Property

/-- The stored form of an operand beside the property. -/
def encodeOperand (p : Property) (shape : OperandShape) (value : Value) : Outcome Bson :=
  match shape with
  | .scalar => p.encode value
  | .element => p.encodeElement value
  | .list =>
    match value.elements? with
    | some items => (items.mapM p.encodeElement).map Bson.array
    | none => .error (.conversion p.name (.notAList value.typeName))

end Property

namespace Operand

def bind (parameters : Parameters) : Operand → Outcome Bson
  | constant value => .ok value
  | parameter name property shape => do property.encodeOperand shape (← parameters.require name)

end Operand

/-- A number of documents: a constant, or the value of a parameter. -/
inductive SizeOperand where
  | constant (count : Nat)
  | parameter (name : String)
deriving DecidableEq

namespace SizeOperand

def bind (parameters : Parameters) : SizeOperand → Outcome Nat
  | constant count => .ok count
  | parameter name => do
    let value ← parameters.require name
    match value.integer? with
    | some (.ofNat count) => return count
    | _ => throw (.operation (.notACountParameter name value.typeName))

end SizeOperand

/-! ## Projections -/

/-- What a chain of members leads to, and its path in the document. -/
inductive Target where
  | property (path : List String) (property : Property)
  | entity (path : List String) (type : EntityType) (nullable : Bool)
  | ownedCollection (path : List String) (type : EntityType) (container : Container)

namespace Target

def path : Target → List String
  | property path _ => path
  | entity path _ _ => path
  | ownedCollection path _ _ => path

end Target

/-- Where the value at one place of a projection comes from. -/
inductive ProjectionBinding where
  | stored (target : Target)
  | constant (value : Value)
  | parameter (name : String)

namespace ProjectionBinding

/-- The path that is read, if any is. -/
def path? : ProjectionBinding → Option (List String)
  | stored target => some target.path
  | constant _ => none
  | parameter _ => none

end ProjectionBinding

/-- A place in a shaped value: the names and positions that lead to it. -/
abbrev Place := List String

namespace Place

def order : Place → Place → Ordering
  | [], [] => .eq
  | [], _ :: _ => .lt
  | _ :: _, [] => .gt
  | a :: as, b :: bs => (compare a b).then (order as bs)

def text (place : Place) : String := Text.dotted place

end Place

/-- The bindings of the places, in their order. -/
abbrev Projection := List (Place × ProjectionBinding)

namespace Projection

/-- Binds a place, in place of an earlier binding of it. -/
def insert (place : Place) (binding : ProjectionBinding) : Projection → Projection
  | [] => [(place, binding)]
  | (other, old) :: rest =>
    match place.order other with
    | .lt => (place, binding) :: (other, old) :: rest
    | .eq => (place, binding) :: rest
    | .gt => (other, old) :: insert place binding rest

/-- Paths without those that repeat the one right before them. -/
def dedup : List String → List String
  | first :: second :: rest =>
    if first = second then dedup (second :: rest) else first :: dedup (second :: rest)
  | short => short

/-- The path goes on behind the parent, after a point. -/
def isNested (path parent : String) : Bool :=
  Text.startsWith path parent && (path.toList.drop parent.length).head? == some '.'

/-- Takes a path, unless one that was taken before is a parent of it. -/
def keep (kept : List String) (path : String) : List String :=
  if kept.any (isNested path) then kept else kept ++ [path]

/-- The paths that are read, without those below another one; none if a whole document is read, or
nothing at all is bound.  In order, parents come before what is below them. -/
def paths? (projection : Projection) : Option (List String) :=
  let read := projection.filterMap fun entry ↦ entry.2.path?
  if projection.isEmpty || read.any (·.isEmpty) then none
  else
    let paths := (read.map Text.dotted).mergeSort fun a b ↦ decide (a ≤ b)
    some ((dedup paths).foldl keep [])

end Projection

/-- How a document becomes a value. -/
inductive Shaper where
  /-- The value bound at a place. -/
  | place (place : Place)
  | record (shape : RecordShape) (fields : List (String × Shaper))
  | array (items : List Shaper)
  /-- The value of a function of the whole entity. -/
  | function (function : Lambda)

/-! ## Plans -/

/-- What becomes of the sequence of results. -/
inductive Terminal where
  | sequence
  | first (orDefault : Bool)
  | single (orDefault : Bool)
  | any
  | count
  | longCount
deriving DecidableEq

namespace Terminal

def text : Terminal → String
  | sequence => "Sequence"
  | first orDefault => "First " ++ choice orDefault
  | single orDefault => "Single " ++ choice orDefault
  | any => "Any"
  | count => "Count"
  | longCount => "LongCount"
where
  choice (orDefault : Bool) : String :=
    "\x7b or_default: " ++ (if orDefault then "true" else "false") ++ " \x7d"

end Terminal

/-- The documents of one root type that a query reads. -/
structure Selection where
  collection : String
  entity : EntityType
  filter : Option (Filter Operand)
  sort : List SortField
  skip : Option SizeOperand
  limit : Option SizeOperand
  projection : Projection

/-- The steps of a selection in the order in which they are taken. -/
inductive Stage where
  | filter
  | sort
  | skip
  | limit
  | project
deriving DecidableEq

def Stage.name : Stage → String
  | filter => "match"
  | sort => "sort"
  | skip => "skip"
  | limit => "limit"
  | project => "project"

namespace Selection

def stages (s : Selection) : List Stage :=
  (if s.filter.isSome then [.filter] else []) ++
    (if s.sort.isEmpty then [] else [.sort]) ++
    (if s.skip.isSome then [.skip] else []) ++
    (if s.limit.isSome then [.limit] else []) ++
    (if s.projection.isEmpty then [] else [.project])

/-- The smaller of a limit and a cap, where there are both. -/
def smaller : Option Nat → Option Nat → Option Nat
  | some limit, some cap => some (min limit cap)
  | some limit, none => some limit
  | none, cap => cap

/-- The value of an optional part; a missing one stays missing. -/
def bindOption {α β : Type} (bind : α → Outcome β) : Option α → Outcome (Option β)
  | none => .ok none
  | some a => (bind a).map some

/-- The query for the values of the parameters, for at most `cap` documents if there is a cap. -/
def toQuery (s : Selection) (parameters : Parameters) (cap : Option Nat) : Outcome Query := do
  let filter ← bindOption (·.mapM (Operand.bind parameters)) s.filter
  let offset ← bindOption (·.bind parameters) s.skip
  let limit ← bindOption (·.bind parameters) s.limit
  return {
    filter := filter
    sort := s.sort
    offset := offset
    limit := smaller limit cap
    projection := s.projection.paths? }

end Selection

/-- A planned query. -/
structure Plan where
  selection : Selection
  shaper : Shaper
  terminal : Terminal

end DocMapping
