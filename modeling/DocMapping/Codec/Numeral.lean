import DocMapping.Error
import DocMapping.Number.Decimal128
import DocMapping.Number.DecimalBinary
import DocMapping.Number.FloatText
import DocMapping.Number.DecimalText
import DocMapping.Value
import DocMapping.Bson

/-!
# Numerals

Numbers on their way between a host value and its stored form.  A conversion is strict: a number that
the target cannot hold is refused, unless the property permits to drop digits (truncation) or to move
the number to the end of the range (overflow).
-/

namespace DocMapping

/-- The losses that a property permits. -/
structure Permissions where
  overflow : Bool
  truncation : Bool
deriving DecidableEq

/-- A number of one of the three sorts. -/
inductive Numeral where
  | integer (value : Int64)
  | double (value : Binary64)
  | decimal (value : Decimal)

/-- The sorts of numbers that values and documents hold. -/
inductive NumberForm where
  | int32
  | int64
  | double
  | decimal
deriving DecidableEq

namespace Numeral

/-! ## Reading -/

def ofValue? : Value → Option Numeral
  | .int32 value => some (integer (Int64.ofInt value.toInt))
  | .int64 value => some (integer value)
  | .double value => some (double value)
  | .decimal value => some (decimal value)
  | _ => none

/-- A whole number of 64 bits with an optional sign. -/
def integerOfText? (text : String) : Option Int64 :=
  let (negative, digits) := Binary64.splitSign text.toList
  let magnitude := Binary64.digitsValue digits
  let number : Int := if negative then -magnitude else magnitude
  if digits.isEmpty || !digits.all Char.isDigit || number < -2 ^ 63 || 2 ^ 63 ≤ number then none
  else some (Int64.ofInt number)

/-- Reads a text as a whole number, else as a decimal, else as a double. -/
def ofText? (text : String) : Option Numeral :=
  (integerOfText? text).map integer
    |>.orElse fun _ ↦ (Decimal.ofText? text).map decimal
    |>.orElse fun _ ↦ (Binary64.ofText? text).map double

/-- The number that a stored value carries; other values carry none. -/
def ofBson? (permissions : Permissions) : Bson → Except ConversionFault (Option Numeral)
  | .int32 value => .ok (some (integer (Int64.ofInt value.toInt)))
  | .int64 value => .ok (some (integer value))
  | .double value => .ok (some (double value))
  | .decimal128 value =>
    (value.toDecimal permissions.overflow permissions.truncation).map fun number ↦
      some (decimal number)
  | .string text => .ok (ofText? text)
  | _ => .ok none

/-! ## Conversions -/

def text : Numeral → String
  | integer value => toString value.toInt
  | double value => value.plainText
  | decimal value => value.text

/-- The number rounded toward zero.  Doubles beyond 128 bits become the end of that range. -/
def whole (permissions : Permissions) (n : Numeral) : Except ConversionFault Int :=
  match n with
  | integer value => .ok value.toInt
  | double value =>
    if value.isNaN then .error .nanInteger
    else if value.hasFraction && !permissions.truncation then .error (.fractional n.text)
    else .ok (value.truncateInto (-2 ^ 127) (2 ^ 127 - 1))
  | decimal value =>
    if value.hasFraction && !permissions.truncation then .error (.fractional n.text)
    else .ok value.truncate

/-- The number as a whole one between two ends. -/
def toInteger (permissions : Permissions) (lower upper : Int) (n : Numeral) :
    Except ConversionFault Int :=
  (n.whole permissions).bind fun number ↦
    if lower ≤ number ∧ number ≤ upper then .ok number
    else if permissions.overflow then .ok (max lower (min number upper))
    else .error (.outsideRange n.text (toString lower) (toString upper))

/-- A double that reads back as the same number. -/
def toDouble (permissions : Permissions) (n : Numeral) : Except ConversionFault Binary64 :=
  let exactly (number : Binary64) (exact : Bool) : Except ConversionFault Binary64 :=
    if exact || permissions.truncation then .ok number else .error (.lossyDouble n.text)
  match n with
  | double value => .ok value
  | integer value =>
    let number := Binary64.ofInt value.toInt
    exactly number (number.truncateInto (-2 ^ 63) (2 ^ 63 - 1) == value.toInt)
  | decimal value =>
    let number := value.toBinary
    exactly number ((Decimal.ofBinary? number).any (·.numericEq value))

/-- The number as a decimal; infinities are out of its range. -/
def toDecimal (permissions : Permissions) (n : Numeral) : Except ConversionFault Decimal :=
  match n with
  | integer value => .ok (Decimal.ofInt value.toInt)
  | decimal value => .ok value
  | double value =>
    match Decimal.ofBinary? value with
    | some number => .ok number
    | none =>
      if value.isNaN then .error .nanDecimal
      else if permissions.overflow then .ok (Decimal.extreme value.negative)
      else .error (.outsideDecimal n.text)

def toInt32 (permissions : Permissions) (n : Numeral) : Except ConversionFault Int32 :=
  (n.toInteger permissions (-2 ^ 31) (2 ^ 31 - 1)).map Int32.ofInt

def toInt64 (permissions : Permissions) (n : Numeral) : Except ConversionFault Int64 :=
  (n.toInteger permissions (-2 ^ 63) (2 ^ 63 - 1)).map Int64.ofInt

/-- The number as a stored value. -/
def toBson (permissions : Permissions) (n : Numeral) : NumberForm → Except ConversionFault Bson
  | .int32 => (n.toInt32 permissions).map Bson.int32
  | .int64 => (n.toInt64 permissions).map Bson.int64
  | .double => (n.toDouble permissions).map Bson.double
  | .decimal => (n.toDecimal permissions).map fun number ↦ .decimal128 (Decimal128.ofDecimal number)

/-- The number as a host value. -/
def toValue (permissions : Permissions) (n : Numeral) : NumberForm → Except ConversionFault Value
  | .int32 => (n.toInt32 permissions).map Value.int32
  | .int64 => (n.toInt64 permissions).map Value.int64
  | .double => (n.toDouble permissions).map Value.double
  | .decimal => (n.toDecimal permissions).map Value.decimal

end Numeral

end DocMapping
