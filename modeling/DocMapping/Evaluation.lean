import DocMapping.Error
import DocMapping.Expression.Text
import DocMapping.Text.Search
import DocMapping.Value.Arithmetic
import DocMapping.Value.Equality

/-!
# Evaluation

The value of a function at an argument, computed here and not by a store.  Operands are evaluated from
left to right, and the second operand of `&&` and `||` only where it matters.  Members of entities
that were never set are null; members of null are errors.
-/

namespace DocMapping

/-- The values supplied for the parameters of a query. -/
abbrev Parameters := List (String × Value)

namespace Parameters

/-- The value of a parameter; a missing one is an error. -/
def require (parameters : Parameters) (name : String) : Outcome Value :=
  match parameters.lookup name with
  | some value => .ok value
  | none => .error (.operation (.missingParameter name))

end Parameters

/-- The fault of an operation in the expression that holds it. -/
def ArithmeticFault.within (e : Expression) : ArithmeticFault → OperationFault
  | overflow => .overflow e.text
  | incompatible => .incompatible e.text
  | notNumeric left right => .notNumeric e.text left right
  | notText found => .notText found

namespace Expression

/-- The truth of an evaluated expression. -/
def truth (e : Expression) (result : Outcome Value) : Outcome Bool :=
  result.bind fun value ↦
    match value.bool? with
    | some flag => .ok flag
    | none => .error (.operation (.notABoolean e.text))

/-- The value of a member of the value of `target`. -/
def memberOf (target : Expression) (name : String) : Value → Outcome Value
  | .entity type members => .ok ((Entity.mk type members).value name)
  | .record _ fields =>
    match fields.lookup name with
    | some value => .ok value
    | none => .error (.operation (.noRecordMember name))
  | .null => .error (.operation (.nullTarget target.text (member target name).text))
  | other => .error (.operation (.memberOfScalar name other.typeName))

/-- The item of a collection at a position. -/
def itemOf (e : Expression) (collection position : Value) : Outcome Value :=
  match position.integer? with
  | some (.ofNat place) =>
    match collection.elements?.bind fun items ↦ items[place]? with
    | some item => .ok item
    | none => .error (.operation (.indexOutOfRange (toString place) e.text))
  | _ => .error (.operation (.notAnIndex e.text))

/-- The order of the operands is one that is asked for. -/
def compares (accepts : Ordering → Bool) (a b : Value) : Outcome Value :=
  .ok (.bool ((a.order? b).any accepts))

def arithmeticOf (e : Expression) (operator : ArithmeticOperator) (a b : Value) : Outcome Value :=
  (a.arithmetic operator b).mapError fun fault ↦ .operation (fault.within e)

/-- The result of an operator on the values of its operands. -/
def binaryOf (e : Expression) (operator : BinaryOperator) (a b : Value) : Outcome Value :=
  match operator with
  | .equal => .ok (.bool (a.structuralEq b))
  | .notEqual => .ok (.bool !(a.structuralEq b))
  | .lessThan => compares (·.isLT) a b
  | .lessThanOrEqual => compares (·.isLE) a b
  | .greaterThan => compares (·.isGT) a b
  | .greaterThanOrEqual => compares (·.isGE) a b
  | .add => arithmeticOf e .add a b
  | .subtract => arithmeticOf e .subtract a b
  | .multiply => arithmeticOf e .multiply a b
  | .divide => arithmeticOf e .divide a b
  | .andAlso | .orElse => .error (.operation (.notBooleans e.text))

/-- The result of a method on the values of receiver and arguments. -/
def callOf (e : Expression) (method : Method) (values : List Value) : Outcome Value :=
  match method, values with
  | .startsWith, [.string text, .string part] => .ok (.bool (Text.startsWith text part))
  | .endsWith, [.string text, .string part] => .ok (.bool (Text.endsWith text part))
  | .contains, [.string text, .string part] => .ok (.bool (Text.contains text part))
  | .contains, [.collection _ items, item] => .ok (.bool (items.any (·.structuralEq item)))
  | _, _ => .error (.operation (.notEvaluable e.text))

mutual

/-- The value of an expression where the parameter `name` is `argument`. -/
def evaluate (parameters : Parameters) (name : String) (argument : Value) :
    Expression → Outcome Value
  | parameter other =>
    if other = name then .ok argument else .error (.operation (.notEvaluable other))
  | queryParameter name => parameters.require name
  | constant value => .ok value
  | member target field =>
    (evaluate parameters name argument target).bind (memberOf target field)
  | binary .andAlso left right => do
    let flag ← truth left (evaluate parameters name argument left)
    if flag then
      (truth right (evaluate parameters name argument right)).map Value.bool
    else return .bool false
  | binary .orElse left right => do
    let flag ← truth left (evaluate parameters name argument left)
    if flag then return .bool true
    else (truth right (evaluate parameters name argument right)).map Value.bool
  | binary operator left right => do
    let a ← evaluate parameters name argument left
    let b ← evaluate parameters name argument right
    binaryOf (binary operator left right) operator a b
  | not operand =>
    (truth operand (evaluate parameters name argument operand)).map fun flag ↦ .bool !flag
  | call method arguments => do
    let values ← evaluateList parameters name argument arguments
    callOf (call method arguments) method values
  | index target position => do
    let collection ← evaluate parameters name argument target
    let place ← evaluate parameters name argument position
    itemOf (index target position) collection place
  | record shape fields =>
    (evaluateFields parameters name argument fields).map (Value.record shape)
  | array items => (evaluateList parameters name argument items).map (Value.collection .array)
  | entitySet entity => .error (.operation (.notEvaluable (entitySet entity).text))
  | lambda other body => .error (.operation (.notEvaluable (lambda other body).text))

def evaluateList (parameters : Parameters) (name : String) (argument : Value) :
    List Expression → Outcome (List Value)
  | [] => .ok []
  | e :: rest => do
    let value ← evaluate parameters name argument e
    return value :: (← evaluateList parameters name argument rest)

def evaluateFields (parameters : Parameters) (name : String) (argument : Value) :
    List (String × Expression) → Outcome (List (String × Value))
  | [] => .ok []
  | (field, e) :: rest => do
    let value ← evaluate parameters name argument e
    return (field, value) :: (← evaluateFields parameters name argument rest)

end

end Expression

namespace Lambda

/-- The value of a function at an argument. -/
def evaluate (f : Lambda) (parameters : Parameters) (argument : Value) : Outcome Value :=
  f.body.evaluate parameters f.parameter argument

end Lambda

end DocMapping
