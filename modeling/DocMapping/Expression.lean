import DocMapping.Value

/-!
# Expressions

Queries and functions as they are written: a set of entities, operators on it, and functions of one
entity made of members, constants and parameters of the query, whose values come later.  Expressions
are only data here; what they mean is decided where they are evaluated or planned.
-/

namespace DocMapping

inductive BinaryOperator where
  | equal
  | notEqual
  | lessThan
  | lessThanOrEqual
  | greaterThan
  | greaterThanOrEqual
  | andAlso
  | orElse
  | add
  | subtract
  | multiply
  | divide
deriving DecidableEq

namespace BinaryOperator

def isComparison : BinaryOperator → Bool
  | equal | notEqual | lessThan | lessThanOrEqual | greaterThan | greaterThanOrEqual => true
  | _ => false

/-- The operator that gives the same answer when its operands change sides. -/
def flipped : BinaryOperator → BinaryOperator
  | lessThan => greaterThan
  | lessThanOrEqual => greaterThanOrEqual
  | greaterThan => lessThan
  | greaterThanOrEqual => lessThanOrEqual
  | other => other

end BinaryOperator

/-- What can be called on a query or a value; other methods have only a name. -/
inductive Method where
  | filter
  | select
  | orderBy
  | orderByDescending
  | thenBy
  | thenByDescending
  | skip
  | take
  | first
  | firstOrDefault
  | single
  | singleOrDefault
  | any
  | count
  | longCount
  | contains
  | startsWith
  | endsWith
  | named (name : String)
deriving DecidableEq

inductive Expression where
  /-- All entities of a type. -/
  | entitySet (entity : String)
  /-- The argument of a function. -/
  | parameter (name : String)
  /-- A value that is supplied when the query is run. -/
  | queryParameter (name : String)
  | constant (value : Value)
  | member (target : Expression) (name : String)
  | binary (operator : BinaryOperator) (left right : Expression)
  | not (operand : Expression)
  /-- The receiver is the first argument. -/
  | call (method : Method) (arguments : List Expression)
  | index (target position : Expression)
  | lambda (parameter : String) (body : Expression)
  | record (shape : RecordShape) (fields : List (String × Expression))
  | array (items : List Expression)

/-- A function of one argument. -/
structure Lambda where
  parameter : String
  body : Expression

namespace Lambda

/-- The function returns its argument. -/
def isIdentity (f : Lambda) : Bool :=
  match f.body with
  | .parameter name => name == f.parameter
  | _ => false

def toExpression (f : Lambda) : Expression := .lambda f.parameter f.body

end Lambda

end DocMapping
