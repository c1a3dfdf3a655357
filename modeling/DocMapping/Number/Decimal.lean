import DocMapping.Number.Rounding

/-!
# Decimal Numbers

Decimal numbers with a 96-bit coefficient, a scale of at most 28 digits after the point and a sign.
Equal numbers may differ in scale, and zero may carry a sign: the scale is part of the written form
and the order is numeric.
-/

namespace DocMapping

/-- The number `coefficient / 10 ^ scale` with its sign. -/
structure Decimal where
  negative : Bool
  coefficient : Fin (2 ^ 96)
  scale : Fin 29
deriving DecidableEq

namespace Decimal

def zero : Decimal := ⟨false, 0, 0⟩

/-- The largest number, and with a sign the smallest. -/
def extreme (negative : Bool) : Decimal :=
  ⟨negative, ⟨2 ^ 96 - 1, by decide⟩, 0⟩

/-- A number from its parts, if they are in range; zero keeps the sign. -/
def ofSigned? (negative : Bool) (coefficient scale : Nat) : Option Decimal :=
  if h : coefficient < 2 ^ 96 ∧ scale < 29 then
    some ⟨negative, ⟨coefficient, h.1⟩, ⟨scale, h.2⟩⟩
  else none

/-- A number from its parts, each brought into its range. -/
def wrap (negative : Bool) (coefficient scale : Nat) : Decimal :=
  ⟨negative, lowBits 96 coefficient, Fin.ofNat 29 scale⟩

/-- The number with zero freed of its sign. -/
def unsignZero (d : Decimal) : Decimal :=
  { d with negative := d.negative && d.coefficient.val != 0 }

/-- A number from its parts, if they are in range; zero is built without a sign. -/
def ofParts? (negative : Bool) (coefficient scale : Nat) : Option Decimal :=
  (ofSigned? negative coefficient scale).map unsignZero

/-- A number of 64 bits without a fraction; wider ones are taken modulo `2 ^ 96`. -/
def ofInt (number : Int) : Decimal :=
  ⟨number < 0, lowBits 96 number.natAbs, 0⟩

def isZero (d : Decimal) : Bool := d.coefficient.val == 0

/-- The coefficient with the sign. -/
def signedCoefficient (d : Decimal) : Int :=
  if d.negative then -(d.coefficient.val : Int) else d.coefficient.val

/-- The number without its fractional digits. -/
def truncate (d : Decimal) : Int :=
  let whole : Int := (d.coefficient.val / 10 ^ d.scale.val : Nat)
  if d.negative then -whole else whole

/-- The number has digits other than zero after the point. -/
def hasFraction (d : Decimal) : Bool :=
  d.coefficient.val % 10 ^ d.scale.val != 0

/-! ## Order -/

/-- The numeric order: both numbers are brought to the same scale. -/
def order (a b : Decimal) : Ordering :=
  compare (a.signedCoefficient * 10 ^ b.scale.val) (b.signedCoefficient * 10 ^ a.scale.val)

/-- Numeric equality. -/
def numericEq (a b : Decimal) : Bool := a.order b == .eq

/-! ## Trailing zeros -/

/-- Drops zeros after the point, at most `scale` of them. -/
def stripZeros : Nat → Nat → Nat × Nat
  | coefficient, 0 => (coefficient, 0)
  | coefficient, scale + 1 =>
    if coefficient % 10 = 0 then stripZeros (coefficient / 10) scale else (coefficient, scale + 1)

/-- The equal number of the smallest scale; zero loses its sign. -/
def normalize (d : Decimal) : Decimal :=
  if d.isZero then zero
  else
    let (coefficient, scale) := stripZeros d.coefficient.val d.scale.val
    wrap d.negative coefficient scale

/-! ## Written form -/

/-- The digits of `coefficient` with a point before the last `scale` of them. -/
def pointText (coefficient scale : Nat) : String :=
  let digits := Nat.toDigits 10 coefficient
  let digits := List.replicate (scale + 1 - digits.length) '0' ++ digits
  let whole := digits.length - scale
  if scale = 0 then String.ofList digits
  else String.ofList (digits.take whole) ++ "." ++ String.ofList (digits.drop whole)

/-- Every digit of the scale is written. -/
def text (d : Decimal) : String :=
  (if d.negative then "-" else "") ++ pointText d.coefficient.val d.scale.val

end Decimal

end DocMapping
