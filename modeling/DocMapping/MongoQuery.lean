import DocMapping.Error
import DocMapping.Query

/-!
# Queries of a MongoDB Server

Filters, orders and projections as the documents that a MongoDB server reads.  Tests of texts become
regular expressions of the escaped text.  Empty groups keep their meaning: no conditions always hold,
and no alternatives never do.
-/

namespace DocMapping

namespace Text

/-- The characters that mean something in a regular expression. -/
def isPatternMark (c : Char) : Bool :=
  ['\\', '^', '$', '.', '|', '?', '*', '+', '(', ')', '[', ']', '\x7b', '\x7d'].contains c

/-- The regular expression that finds a text. -/
def pattern (text : String) : String :=
  String.ofList (text.toList.flatMap fun c ↦ if isPatternMark c then ['\\', c] else [c])

end Text

namespace FieldOperator

/-- The regular expression of a test of a text. -/
def regex (operator : FieldOperator) (field : String) (operand : Bson) : Planned Document :=
  match operand with
  | .string text =>
    let escaped := Text.pattern text
    let expression :=
      match operator with
      | startsWith => "^" ++ escaped
      | endsWith => escaped ++ "\\z"
      | _ => escaped
    .ok [("$regex", .string expression)]
  | _ => .error (.notAStringOperand operator.name field)

/-- The test of a field as a document. -/
def toMongo (operator : FieldOperator) (field : String) (operand : Bson) : Planned Document :=
  match operator with
  | eq => .ok [("$eq", operand)]
  | ne => .ok [("$ne", operand)]
  | gt => .ok [("$gt", operand)]
  | gte => .ok [("$gte", operand)]
  | lt => .ok [("$lt", operand)]
  | lte => .ok [("$lte", operand)]
  | contains => regex contains field operand
  | startsWith => regex startsWith field operand
  | endsWith => regex endsWith field operand
  | notContains => (regex contains field operand).map fun test ↦ [("$not", .document test)]
  | containsElement => .ok [("$elemMatch", .document [("$eq", operand)])]
  | notContainsElement =>
    .ok [("$not", .document [("$elemMatch", .document [("$eq", operand)])])]
  | anyOf => .ok [("$in", .array operand.candidates)]
  | noneOf => .ok [("$nin", .array operand.candidates)]

end FieldOperator

namespace Filter

mutual

/-- The filter as a document. -/
def toMongo : Filter Bson → Planned Document
  | all [] => .ok []
  | all conditions => (toMongoEach conditions).map fun each ↦ [("$and", .array each)]
  | any [] => .ok [("$nor", .array [.document []])]
  | any conditions => (toMongoEach conditions).map fun each ↦ [("$or", .array each)]
  | not condition =>
    (toMongo condition).map fun inner ↦ [("$nor", .array [.document inner])]
  | present field expected => .ok [(field, .document [("$exists", .boolean expected)])]
  | test field operator operand =>
    (operator.toMongo field operand).map fun inner ↦ [(field, .document inner)]

def toMongoEach : List (Filter Bson) → Planned (List Bson)
  | [] => .ok []
  | condition :: rest => do
    let first ← toMongo condition
    return .document first :: (← toMongoEach rest)

end

end Filter

namespace SortDirection

def toMongo : SortDirection → Bson
  | ascending => .int32 1
  | descending => .int32 (-1)

end SortDirection

namespace Query

def mongoFilter (q : Query) : Planned Document :=
  match q.filter with
  | some filter => filter.toMongo
  | none => .ok []

/-- The order as a document.  A repeated field keeps its first place and its last direction, and the
identifier is the last field unless it is one already. -/
def mongoSort? (q : Query) : Option Document :=
  if q.sort.isEmpty then none
  else
    let fields := Document.ofList (q.sort.map fun s ↦ (s.field, s.direction.toMongo))
    some (if (fields.get? idElement).isSome then fields else fields ++ [(idElement, .int32 1)])

def mongoProjection? (q : Query) : Option Document :=
  q.projection.map fun paths ↦ Document.ofList (paths.map fun path ↦ (path, .int32 1))

end Query

end DocMapping
