import DocMapping.Planning.Target

/-!
# Conditions of Plans

A condition on an entity as a filter of its documents.  Constant conditions are folded away on the way
up, so that a filter only holds tests of fields; the values beside a member are stored as the member
itself is stored.
-/

namespace DocMapping

/-- A condition as a plan states it. -/
inductive Predicate where
  | always (holds : Bool)
  | filter (condition : Filter Operand)

namespace Predicate

def and : Predicate → Predicate → Predicate
  | always false, _ => always false
  | _, always false => always false
  | always true, other => other
  | other, always true => other
  | filter a, filter b => filter (a.and b)

def or : Predicate → Predicate → Predicate
  | always true, _ => always true
  | _, always true => always true
  | always false, other => other
  | other, always false => other
  | filter a, filter b => filter (a.or b)

def negate : Predicate → Predicate
  | always holds => always !holds
  | filter condition => filter condition.negate

/-- One test of the field at a path. -/
def test (path : List String) (operator : FieldOperator) (operand : Operand) : Predicate :=
  filter (.test (Text.dotted path) operator operand)

end Predicate

namespace BinaryOperator

/-- The test of a field for a comparison. -/
def fieldOperator? : BinaryOperator → Option FieldOperator
  | equal => some .eq
  | notEqual => some .ne
  | lessThan => some .lt
  | lessThanOrEqual => some .lte
  | greaterThan => some .gt
  | greaterThanOrEqual => some .gte
  | _ => none

end BinaryOperator

namespace Property

/-- A text that is stored as it is. -/
def isPlainText (p : Property) : Bool :=
  !p.isCollection && p.scalarKind == .string &&
    (p.representation == .natural || p.representation == .string)

/-- A single truth value. -/
def isFlag (p : Property) : Bool := !p.isCollection && p.scalarKind == .bool

/-- The operand for an expression in `whole`: a constant or a parameter of the query. -/
def operand (p : Property) (shape : OperandShape) (whole : Expression) :
    Expression → Outcome Operand
  | .queryParameter name => .ok (.parameter name p shape)
  | .constant .null => .ok (.constant .null)
  | .constant value => (p.encodeOperand shape value).map Operand.constant
  | other => .error (.planning (.notAnOperand other.text whole.text))

end Property

namespace Scope

/-- The comparison of what a member leads to with the expression on its other side. -/
def compareTarget (operator : FieldOperator) (whole other : Expression) : Target → Outcome Predicate
  | .property path p => (p.operand .scalar whole other).map (Predicate.test path operator)
  | target =>
    match other, operator with
    | .constant .null, .eq => .ok (.test target.path .eq (.constant .null))
    | .constant .null, .ne => .ok (.test target.path .ne (.constant .null))
    | _, _ => .error (.planning (.entityComparison whole.text))

/-- A comparison of a member with a value on either side; `flipped` is for a member on the right. -/
def comparison (s : Scope) (operator flipped : FieldOperator) (whole left right : Expression) :
    Outcome Predicate := do
  let first ← (s.resolve left).toOutcome
  let second ← (s.resolve right).toOutcome
  match first, second with
  | some _, some _ => throw (.planning (.twoMembers whole.text))
  | some target, none => compareTarget operator whole right target
  | none, some target => compareTarget flipped whole left target
  | none, none => throw (.planning (.noMember whole.text))

/-- The test of a text by a method. -/
def textOperator : Method → FieldOperator
  | .startsWith => .startsWith
  | .endsWith => .endsWith
  | _ => .contains

/-- A list of values that must hold the member in `argument`. -/
def listTest (s : Scope) (whole receiver argument : Expression) : Outcome Predicate := do
  match ← (s.resolve argument).toOutcome with
  | some (.property path p) =>
    if p.isCollection then throw (.planning (.notAListTest whole.text))
    else (p.operand .list whole receiver).map (Predicate.test path .anyOf)
  | _ => throw (.planning (.notAListTest whole.text))

/-- A test of a text, of a collection, or of a member against a list. -/
def methodTest (s : Scope) (method : Method) (whole receiver argument : Expression) :
    Outcome Predicate := do
  match ← (s.resolve receiver).toOutcome with
  | some (.property path p) =>
    if p.isCollection && method == .contains then
      (p.operand .element whole argument).map (Predicate.test path .containsElement)
    else if p.isPlainText then
      (p.operand .scalar whole argument).map (Predicate.test path (textOperator method))
    else throw (.planning (.notAStringMember whole.text))
  | some _ => throw (.planning (.notAStringMember whole.text))
  | none =>
    if method = .contains then s.listTest whole receiver argument
    else throw (.planning (.noMember whole.text))

/-- A call that is a condition. -/
def callTest (s : Scope) (method : Method) (arguments : List Expression) : Outcome Predicate :=
  let whole := Expression.call method arguments
  match arguments with
  | [receiver, argument] =>
    if method = .startsWith ∨ method = .endsWith ∨ method = .contains then
      s.methodTest method whole receiver argument
    else .error (.planning (.unsupportedMethod method.text whole.text))
  | _ => .error (.planning (.unsupported whole.text))

/-- A member that is a condition. -/
def memberTest (s : Scope) (whole : Expression) : Outcome Predicate := do
  match ← (s.resolve whole).toOutcome with
  | some (.property path p) =>
    if p.isFlag then
      (p.encode (.bool true)).map fun truth ↦ .test path .eq (.constant truth)
    else throw (.planning (.notABooleanMember whole.text))
  | _ => throw (.planning (.notABooleanMember whole.text))

/-- The condition that an expression states. -/
def predicate (s : Scope) : Expression → Outcome Predicate
  | .constant (.bool holds) => .ok (.always holds)
  | .binary .andAlso left right => do
    let a ← s.predicate left
    return a.and (← s.predicate right)
  | .binary .orElse left right => do
    let a ← s.predicate left
    return a.or (← s.predicate right)
  | .not operand => (s.predicate operand).map Predicate.negate
  | .binary operator left right =>
    let whole := Expression.binary operator left right
    match operator.fieldOperator?, operator.flipped.fieldOperator? with
    | some direct, some flipped => s.comparison direct flipped whole left right
    | _, _ => .error (.planning (.unsupportedPredicate whole.text))
  | .call method arguments => s.callTest method arguments
  | .member target name => s.memberTest (.member target name)
  | other => .error (.planning (.unsupportedPredicate other.text))

end Scope

end DocMapping
