import DocMapping.Bson

/-!
# Filters

Conditions on stored documents, built from tests of one field each.  The operands are stored values,
or anything that becomes one later.  A negation is pushed down to the tests, which have opposites
except for the two that look at the ends of a text.
-/

namespace DocMapping

/-- The tests of a field against an operand. -/
inductive FieldOperator where
  | eq
  | ne
  | gt
  | gte
  | lt
  | lte
  | contains
  | notContains
  | containsElement
  | notContainsElement
  | startsWith
  | endsWith
  | anyOf
  | noneOf
deriving DecidableEq

namespace FieldOperator

/-- The test that fails exactly where this one holds, if there is one. -/
def negated? : FieldOperator → Option FieldOperator
  | eq => some ne
  | ne => some eq
  | gt => some lte
  | gte => some lt
  | lt => some gte
  | lte => some gt
  | contains => some notContains
  | notContains => some contains
  | containsElement => some notContainsElement
  | notContainsElement => some containsElement
  | anyOf => some noneOf
  | noneOf => some anyOf
  | startsWith => none
  | endsWith => none

def name : FieldOperator → String
  | eq => "Eq"
  | ne => "Ne"
  | gt => "Gt"
  | gte => "Gte"
  | lt => "Lt"
  | lte => "Lte"
  | contains => "Contains"
  | notContains => "NotContains"
  | containsElement => "ContainsElement"
  | notContainsElement => "NotContainsElement"
  | startsWith => "StartsWith"
  | endsWith => "EndsWith"
  | anyOf => "AnyOf"
  | noneOf => "NoneOf"

/-- All tests. -/
def all : List FieldOperator :=
  [eq, ne, gt, gte, lt, lte, contains, notContains, containsElement, notContainsElement, startsWith,
    endsWith, anyOf, noneOf]

def ofName? (name : String) : Option FieldOperator := all.find? fun o ↦ o.name == name

end FieldOperator

/-- A condition on a document. -/
inductive Filter (α : Type) where
  /-- Every condition holds. -/
  | all (conditions : List (Filter α))
  /-- Some condition holds. -/
  | any (conditions : List (Filter α))
  | not (condition : Filter α)
  /-- The field is there, or is not. -/
  | present (field : String) (expected : Bool)
  | test (field : String) (operator : FieldOperator) (operand : α)

namespace Filter

variable {α β : Type}

/-- Both conditions; a conjunction on the left takes the other one in. -/
def and (a b : Filter α) : Filter α :=
  match a with
  | all conditions => all (conditions ++ [b])
  | a => all [a, b]

/-- Either condition; a disjunction on the left takes the other one in. -/
def or (a b : Filter α) : Filter α :=
  match a with
  | any conditions => any (conditions ++ [b])
  | a => any [a, b]

mutual

/-- The condition that holds where this one does not. -/
def negate : Filter α → Filter α
  | all conditions => any (negateEach conditions)
  | any conditions => all (negateEach conditions)
  | not condition => condition
  | present field expected => present field (!expected)
  | test field operator operand =>
    match operator.negated? with
    | some opposite => test field opposite operand
    | none => not (test field operator operand)

def negateEach : List (Filter α) → List (Filter α)
  | [] => []
  | condition :: rest => negate condition :: negateEach rest

end

mutual

/-- Converts every operand, from left to right up to the first that cannot be. -/
def mapM {ε : Type} (convert : α → Except ε β) : Filter α → Except ε (Filter β)
  | all conditions => (mapEach convert conditions).map all
  | any conditions => (mapEach convert conditions).map any
  | not condition => (mapM convert condition).map not
  | present field expected => .ok (present field expected)
  | test field operator operand => (convert operand).map (test field operator)

def mapEach {ε : Type} (convert : α → Except ε β) : List (Filter α) → Except ε (List (Filter β))
  | [] => .ok []
  | condition :: rest => do
    let converted ← mapM convert condition
    return converted :: (← mapEach convert rest)

end

/-- Every element of a document equals the field of its name. -/
def matching (document : Document) : Filter Bson :=
  all (document.map fun (name, value) ↦ test name .eq value)

end Filter

end DocMapping
