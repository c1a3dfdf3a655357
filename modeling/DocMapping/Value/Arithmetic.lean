import DocMapping.Number.DecimalArithmetic
import DocMapping.Number.DecimalBinary
import DocMapping.Number.FloatText
import DocMapping.Value

/-!
# Order and Arithmetic of Values

How values of different sorts meet in an expression.  Whole numbers stay whole and exact, in the wider
of the two widths, and fail where the result does not fit; a decimal operand makes the operation a
decimal one, any other mix of numbers a binary one.  Adding a text to a value joins their texts.
-/

namespace DocMapping

/-- The four operations. -/
inductive ArithmeticOperator where
  | add
  | subtract
  | multiply
  | divide
deriving DecidableEq

/-- Why an operation has no result. -/
inductive ArithmeticFault where
  | overflow
  /-- A decimal number meets a value that is not a number. -/
  | incompatible
  | notNumeric (left right : String)
  /-- The value has no text to be joined. -/
  | notText (found : String)
deriving DecidableEq

namespace Value

/-- The value as a decimal number. -/
def decimal? : Value → Option Decimal
  | decimal value => some value
  | int32 value => some (Decimal.ofInt value.toInt)
  | int64 value => some (Decimal.ofInt value.toInt)
  | double value => Decimal.ofBinary? value
  | _ => none

/-- The order as decimal numbers, where both are. -/
def decimalOrder? (a b : Value) : Option Ordering :=
  match a.decimal?, b.decimal? with
  | some x, some y => some (x.order y)
  | _, _ => none

/-- The order as doubles, where both are numbers. -/
def doubleOrder? (a b : Value) : Option Ordering :=
  match a.double?, b.double? with
  | some x, some y => x.compare? y
  | _, _ => none

/-- The order of two values of comparable sorts. -/
def order? (a b : Value) : Option Ordering :=
  match a, b with
  | string x, string y => some (compare x y)
  | bool x, bool y => some (compare x.toNat y.toNat)
  | dateTime x, dateTime y => some (x.moment.order y.moment)
  | date x, date y => some (compare x.day y.day)
  | time x, time y => some (x.order y)
  | decimal _, _ => decimalOrder? a b
  | _, decimal _ => decimalOrder? a b
  | _, _ =>
    match a.integer?, b.integer? with
    | some x, some y => some (compare x y)
    | _, _ => doubleOrder? a b

/-- The text of a scalar when it is joined to another text; null has an empty one. -/
def joinedText : Value → Except ArithmeticFault String
  | null => .ok ""
  | string value => .ok value
  | bool value => .ok (if value then "true" else "false")
  | int32 value => .ok (toString value.toInt)
  | int64 value => .ok (toString value.toInt)
  | enum value => .ok (toString value.toInt)
  | double value => .ok value.plainText
  | decimal value => .ok value.text
  | guid value => .ok value.text
  | objectId value => .ok value.text
  | date value => .ok value.text
  | time value => .ok value.text
  | dateTime value => .ok (value.moment.text " ")
  | other => .error (.notText other.typeName)

/-- The exact result of an operation on whole numbers; a division rounds toward zero. -/
def wholeResult? (operator : ArithmeticOperator) (x y : Int) : Option Int :=
  match operator with
  | .add => some (x + y)
  | .subtract => some (x - y)
  | .multiply => some (x * y)
  | .divide => if y = 0 then none else some (x.tdiv y)

/-- The exact result, if it has the width of `bits` bits. -/
def within (bits : Nat) (result : Option Int) : Except ArithmeticFault Int :=
  match result with
  | some number =>
    if -2 ^ (bits - 1) ≤ number ∧ number < 2 ^ (bits - 1) then .ok number else .error .overflow
  | none => .error .overflow

def decimalResult? (operator : ArithmeticOperator) (x y : Decimal) : Option Decimal :=
  match operator with
  | .add => x.add? y
  | .subtract => x.sub? y
  | .multiply => x.mul? y
  | .divide => x.div? y

def doubleResult (operator : ArithmeticOperator) (x y : Binary64) : Binary64 :=
  match operator with
  | .add => x.add y
  | .subtract => x.sub y
  | .multiply => x.mul y
  | .divide => x.div y

def decimalArithmetic (operator : ArithmeticOperator) (a b : Value) :
    Except ArithmeticFault Value :=
  match a.decimal?, b.decimal? with
  | some x, some y =>
    match decimalResult? operator x y with
    | some result => .ok (decimal result)
    | none => .error .overflow
  | _, _ => .error .incompatible

def doubleArithmetic (operator : ArithmeticOperator) (a b : Value) : Except ArithmeticFault Value :=
  match a.double?, b.double? with
  | some x, some y => .ok (double (doubleResult operator x y))
  | _, _ => .error (.notNumeric a.typeName b.typeName)

/-- The result of an operation on numbers. -/
def numericArithmetic (operator : ArithmeticOperator) (a b : Value) : Except ArithmeticFault Value :=
  let wide (x y : Int) := (within 64 (wholeResult? operator x y)).map fun n ↦ int64 (Int64.ofInt n)
  match a, b with
  | int32 x, int32 y =>
    (within 32 (wholeResult? operator x.toInt y.toInt)).map fun n ↦ int32 (Int32.ofInt n)
  | int32 x, int64 y => wide x.toInt y.toInt
  | int64 x, int32 y => wide x.toInt y.toInt
  | int64 x, int64 y => wide x.toInt y.toInt
  | decimal _, _ => decimalArithmetic operator a b
  | _, decimal _ => decimalArithmetic operator a b
  | _, _ => doubleArithmetic operator a b

def joined (a b : Value) : Except ArithmeticFault Value := do
  return string ((← a.joinedText) ++ (← b.joinedText))

/-- The result of an operation; where a text is added to or added, the joined texts. -/
def arithmetic (operator : ArithmeticOperator) (a b : Value) : Except ArithmeticFault Value :=
  match operator, a, b with
  | .add, string _, _ => joined a b
  | .add, _, string _ => joined a b
  | _, _, _ => numericArithmetic operator a b

end Value

end DocMapping
