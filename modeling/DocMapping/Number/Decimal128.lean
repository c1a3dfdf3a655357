import DocMapping.Error
import DocMapping.Number.Binary64
import DocMapping.Number.Decimal

/-!
# Stored Decimal Numbers

The 128-bit decimal interchange format in binary integer form: a sign, an exponent of ten with bias
6176 and a coefficient of 113 bits.  The second form holds only coefficients beyond the format's 34
digits and reads as zero.  Decimal numbers are stored exactly; reading one back drops trailing zeros
where the narrower range demands it, and more only with permission.
-/

namespace DocMapping

/-- A stored decimal number by its bit pattern. -/
structure Decimal128 where
  bits : Fin (2 ^ 128)
deriving DecidableEq

namespace Decimal128

/-- The exponent that is stored as zero. -/
def bias : Nat := 6176

def negative (d : Decimal128) : Bool := d.bits.val / 2 ^ 127 = 1

/-- The five bits after the sign, which mark infinities and patterns that are not a number. -/
def combination (d : Decimal128) : Nat := d.bits.val / 2 ^ 122 % 32

def isNaN (d : Decimal128) : Bool := d.combination = 31

def isInfinite (d : Decimal128) : Bool := d.combination = 30

/-- The form of coefficients beyond the 34 digits. -/
def isLargeForm (d : Decimal128) : Bool := d.bits.val / 2 ^ 125 % 4 = 3

def biasedExponent (d : Decimal128) : Nat :=
  if d.isLargeForm then d.bits.val / 2 ^ 111 % 2 ^ 14 else d.bits.val / 2 ^ 113 % 2 ^ 14

def coefficient (d : Decimal128) : Nat :=
  if d.isLargeForm then 0 else d.bits.val % 2 ^ 113

/-- The exponent of ten of the last digit. -/
def exponent (d : Decimal128) : Int := (d.biasedExponent : Int) - bias

/-! ## Decimal numbers -/

/-- Stores a decimal number with its scale; zero has no sign. -/
def ofDecimal (d : Decimal) : Decimal128 :=
  let sign := if d.negative ∧ d.coefficient.val ≠ 0 then 2 ^ 127 else 0
  ⟨lowBits 128 (sign + (bias - d.scale.val) * 2 ^ 113 + d.coefficient.val)⟩

/-- Appends `count` zeros to a coefficient within the 96 bits. -/
def appendZeros? : Nat → Nat → Option Nat
  | 0, coefficient => some coefficient
  | count + 1, coefficient =>
    if coefficient * 10 < 2 ^ 96 then appendZeros? count (coefficient * 10) else none

/-- Drops digits while the scale or the coefficient is out of range; digits other than zero only with
permission to truncate. -/
def dropDigits? (truncation : Bool) : Nat → Nat → Option (Nat × Nat)
  | coefficient, 0 => some (coefficient, 0)
  | coefficient, scale + 1 =>
    if 28 < scale + 1 ∨ 2 ^ 96 ≤ coefficient then
      (if coefficient % 10 ≠ 0 ∧ !truncation then none
        else dropDigits? truncation (coefficient / 10) scale)
    else some (coefficient, scale + 1)

/-- A number out of range becomes the extreme number of its sign if overflow is permitted. -/
def clampOr (overflow negative : Bool) (fault : ConversionFault) :
    Except ConversionFault Decimal :=
  if overflow then .ok (Decimal.extreme negative) else .error fault

/-- Reads a stored number as a decimal one. -/
def toDecimal (overflow truncation : Bool) (d : Decimal128) : Except ConversionFault Decimal :=
  if d.isNaN then .error .nanDecimal
  else if d.isInfinite then clampOr overflow d.negative .infiniteDecimal
  else
    match appendZeros? d.exponent.toNat d.coefficient with
    | none => clampOr overflow d.negative .wideDecimal
    | some widened =>
      match dropDigits? truncation widened (-d.exponent).toNat with
      | none => .error .preciseDecimal
      | some (coefficient, scale) =>
        match Decimal.ofParts? d.negative coefficient scale with
        | some number => .ok number
        | none => clampOr overflow d.negative .wideDecimal

/-- The stored number as a binary one, for an order over all numeric types; a pattern that is not a
number has none. -/
def approximate? (d : Decimal128) : Option Binary64 :=
  if d.isNaN then none
  else if d.isInfinite then some (Binary64.infinity d.negative)
  else if d.isLargeForm then some (Binary64.zero false)
  else
    let coefficient := Binary64.ofRatio d.negative d.coefficient 1
    some (coefficient.mul ((Binary64.ofNat 10).pow d.exponent))

/-! ## Written form -/

/-- The coefficient that is written: one of more than 34 digits stands for zero. -/
def writtenCoefficient (d : Decimal128) : Nat :=
  if d.coefficient < 10 ^ 34 then d.coefficient else 0

/-- Positional for exponents up to zero and leading digits down to the sixth place, else one digit, a
point and an exponent. -/
def text (d : Decimal128) : String :=
  if d.isNaN then "NaN" else
  let sign := if d.negative then "-" else ""
  if d.isInfinite then sign ++ "Infinity"
  else
    let digits := toString d.writtenCoefficient
    let leading := d.exponent + (digits.length : Int) - 1
    if d.exponent ≤ 0 ∧ -6 ≤ leading then
      sign ++ Decimal.pointText d.writtenCoefficient (-d.exponent).toNat
    else
      let rest := String.ofList (digits.toList.drop 1)
      sign ++ String.ofList (digits.toList.take 1) ++ (if rest = "" then "" else "." ++ rest) ++
        "E" ++ (if 0 < leading then "+" else "") ++ toString leading

end Decimal128

end DocMapping
