import DocMapping.Number.Binary64
import DocMapping.Number.Decimal

/-!
# Decimal and Binary Numbers

Conversions between decimal and binary floating-point numbers.  To decimal, the power of two is worked
into the coefficient factor by factor, which may lose low bits of wide numbers; the result keeps at
most the 52 bits that a binary number can vouch for, and no trailing zeros.  To binary, the whole and
the fractional part are converted apart and their sum is rounded back to the scale.
-/

namespace DocMapping.Decimal

/-! ## From binary -/

/-- Multiplies by five and divides by two, without leaving the 96 bits: the result is the coefficient
and the power of ten of `coefficient * 5 ^ count`. -/
def absorbFives : Nat → Nat → Int → Nat × Int
  | 0, coefficient, power => (coefficient, power)
  | count + 1, coefficient, power =>
    if coefficient % 2 = 0 then absorbFives count (coefficient / 2) (power + 1)
    else if coefficient * 5 < 2 ^ 96 then absorbFives count (coefficient * 5) power
    else absorbFives count (coefficient / 2) (power + 1)

/-- Divides by five `count` times, as a multiplication by two over ten while there is room. -/
def absorbTwos : Nat → Nat → Int → Nat × Int
  | 0, coefficient, power => (coefficient, power)
  | count + 1, coefficient, power =>
    if coefficient < 2 ^ 95 then absorbTwos count (coefficient * 2) (power - 1)
    else absorbTwos count (coefficient / 5) power

/-- Multiplies by ten `count` times, within the 96 bits. -/
def raise? : Nat → Nat → Option Nat
  | 0, coefficient => some coefficient
  | count + 1, coefficient =>
    if coefficient * 10 < 2 ^ 96 then raise? count (coefficient * 10) else none

/-- Divides by ten `count` times with the half going up, down to the greatest scale; a coefficient
that vanishes has no scale. -/
def lower : Nat → Nat → Nat → Nat × Nat
  | 0, coefficient, scale => (coefficient, scale)
  | count + 1, coefficient, scale =>
    if coefficient < 10 then (0, 0)
    else lower count (Rounding.halfUp coefficient 10) scale

/-- Divides by ten with the half going up until the coefficient has 52 bits or no scale is left. -/
def dropExcess : Nat → Nat → Nat × Nat
  | coefficient, 0 => (coefficient, 0)
  | coefficient, scale + 1 =>
    if coefficient < 2 ^ 52 then (coefficient, scale + 1)
    else dropExcess (Rounding.halfUp coefficient 10) scale

/-- The power of ten is brought into the range of scales. -/
def settle? (coefficient : Nat) (power : Int) : Option (Nat × Nat) :=
  if 0 < power then (raise? power.toNat coefficient).map fun raised ↦ (raised, 0)
  else if power < -28 then some (lower (-power - 28).toNat coefficient 28)
  else some (coefficient, (-power).toNat)

/-- The decimal number of a binary one; there is none for infinities, patterns that are not a number
and magnitudes of more than 96 bits. -/
def ofBinary? (x : Binary64) : Option Decimal :=
  if !x.isFinite ∨ 2 ^ (1074 + 96) ≤ x.magnitude then none
  else if x.isZero then some { zero with negative := x.negative }
  else
    let power : Int := (x.place : Int) - 1074
    let (coefficient, ten) :=
      if power < 0 then absorbFives (-power).toNat x.significand power
      else absorbTwos power.toNat x.significand power
    (settle? coefficient ten).bind fun (coefficient, scale) ↦
      let (coefficient, scale) := dropExcess coefficient scale
      let (coefficient, scale) := stripZeros coefficient scale
      ofSigned? x.negative coefficient scale

/-! ## To binary -/

/-- The binary number of a decimal one. -/
def toBinary (d : Decimal) : Binary64 :=
  if d.scale.val = 0 then Binary64.ofInt d.signedCoefficient
  else
    let unit := 10 ^ d.scale.val
    let whole := Binary64.ofNat (d.coefficient.val / unit)
    let fraction :=
      (Binary64.ofNat (d.coefficient.val % unit)).div (Binary64.ofNat unit)
    let magnitude :=
      if fraction.isZero then whole
      else
        let power := (Binary64.ofNat 10).pow d.scale.val
        (((whole.add fraction).mul power).round).div power
    if d.negative then magnitude.neg else magnitude

end DocMapping.Decimal
