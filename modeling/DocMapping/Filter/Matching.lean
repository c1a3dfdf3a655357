import DocMapping.Bson.Order
import DocMapping.Bson.Path
import DocMapping.Filter
import DocMapping.Text.Search

/-!
# Matching

Which documents a filter selects.  A missing field equals null and nothing else.  Tests of texts hold
only between two texts, tests of elements only on arrays, and order tests only within one group of
stored values; the opposite of a test holds wherever the test does not, except that a field without
an order to the operand is neither above nor below it.
-/

namespace DocMapping

namespace Bson

/-- The array has an item equal to the value. -/
def hasElement (field value : Bson) : Bool :=
  match field with
  | array items => items.any (·.matchesValue value)
  | _ => false

/-- The operands that a list of candidates stands for; another value is the only candidate. -/
def candidates : Bson → List Bson
  | array items => items
  | single => [single]

end Bson

namespace FieldOperator

def equalsField (field : Option Bson) (operand : Bson) : Bool :=
  match field with
  | some found => found.matchesValue operand
  | none =>
    match operand with
    | .null => true
    | _ => false

/-- The field stands in an order to the operand, and in one that is asked for. -/
def ordersField (accepts : Ordering → Bool) (field : Option Bson) (operand : Bson) : Bool :=
  (field.bind fun found ↦ found.sortKey.order? operand.sortKey).any accepts

def textsField (accepts : String → String → Bool) (field : Option Bson) (operand : Bson) : Bool :=
  match field, operand with
  | some (.string text), .string part => accepts text part
  | _, _ => false

def containedIn (field : Option Bson) (operand : Bson) : Bool :=
  field.any (·.hasElement operand)

/-- The field, or an item of it, is one of the candidates; a missing field counts as null. -/
def amongField (field : Option Bson) (operand : Bson) : Bool :=
  let found := field.getD .null
  operand.candidates.any fun candidate ↦
    found.matchesValue candidate || found.hasElement candidate

/-- The test holds between a field and an operand. -/
def holds (operator : FieldOperator) (field : Option Bson) (operand : Bson) : Bool :=
  match operator with
  | eq => equalsField field operand
  | ne => !equalsField field operand
  | gt => ordersField (·.isGT) field operand
  | gte => ordersField (·.isGE) field operand
  | lt => ordersField (·.isLT) field operand
  | lte => ordersField (·.isLE) field operand
  | contains => textsField Text.contains field operand
  | notContains => !textsField Text.contains field operand
  | startsWith => textsField Text.startsWith field operand
  | endsWith => textsField Text.endsWith field operand
  | containsElement => containedIn field operand
  | notContainsElement => !containedIn field operand
  | anyOf => amongField field operand
  | noneOf => !amongField field operand

end FieldOperator

namespace Filter

mutual

/-- The condition holds of a document. -/
def holds (document : Document) : Filter Bson → Bool
  | all conditions => allHold document conditions
  | any conditions => anyHolds document conditions
  | not condition => !holds document condition
  | present field expected => (document.resolve field).isSome == expected
  | test field operator operand => operator.holds (document.resolve field) operand

def allHold (document : Document) : List (Filter Bson) → Bool
  | [] => true
  | condition :: rest => holds document condition && allHold document rest

def anyHolds (document : Document) : List (Filter Bson) → Bool
  | [] => false
  | condition :: rest => holds document condition || anyHolds document rest

end

end Filter

end DocMapping
