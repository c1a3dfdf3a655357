import DocMapping.Number.Decimal

/-!
# Decimal Arithmetic

Sums and products are exact and then brought into range: as few digits are dropped as the 96 bits and
the 28 digits after the point require, and the rest is rounded to nearest with ties to even.  A
quotient is extended digit block by digit block while it stays in range, and its trailing zeros are
then dropped in four steps.  Where no scale is left to give up, there is no result.
-/

namespace DocMapping.Decimal

/-! ## Bringing a coefficient into range -/

/-- The least number of digits to drop, from `dropped` on, so that the coefficient has 96 bits. -/
def digitsToDrop? (magnitude : Nat) : Nat → Nat → Option Nat
  | 0, dropped => if magnitude / 10 ^ dropped < 2 ^ 96 then some dropped else none
  | more + 1, dropped =>
    if magnitude / 10 ^ dropped < 2 ^ 96 then some dropped
    else digitsToDrop? magnitude more (dropped + 1)

/-- The number `magnitude / 10 ^ scale`, rounded into range; what is rounded to zero keeps its sign. -/
def fit? (negative : Bool) (magnitude scale : Nat) : Option Decimal :=
  match digitsToDrop? magnitude (scale - (scale - 28)) (scale - 28) with
  | none => none
  | some dropped =>
    let rounded := Rounding.halfEven magnitude (10 ^ dropped)
    if rounded < 2 ^ 96 then ofSigned? negative rounded (scale - dropped)
    else if scale = dropped then none
    else ofSigned? negative (Rounding.halfEven rounded 10) (scale - dropped - 1)

/-! ## Sums and products -/

/-- The sum; zero gives the other operand unchanged. -/
def add? (a b : Decimal) : Option Decimal :=
  if a.isZero then some b
  else if b.isZero then some a
  else
    let scale := max a.scale.val b.scale.val
    let sum := a.signedCoefficient * 10 ^ (scale - a.scale.val) +
      b.signedCoefficient * 10 ^ (scale - b.scale.val)
    fit? (sum < 0) sum.natAbs scale

def neg (d : Decimal) : Decimal := { d with negative := !d.negative }

/-- The difference; subtracting from zero turns the sign of all but zero. -/
def sub? (a b : Decimal) : Option Decimal :=
  if a.isZero then some (if b.isZero then b else b.neg)
  else add? a b.neg

/-- The product.  Zero gives a plain zero.  A product of two coefficients of 32 bits is zero when it
lies beyond the 47th digit, and has no sign when it is rounded to zero. -/
def mul? (a b : Decimal) : Option Decimal :=
  let scale := a.scale.val + b.scale.val
  let product := fit? (a.negative != b.negative) (a.coefficient.val * b.coefficient.val) scale
  if a.isZero || b.isZero then some zero
  else if a.coefficient.val < 2 ^ 32 ∧ b.coefficient.val < 2 ^ 32 then
    (if 47 < scale then some zero else product.map unsignZero)
  else product

/-! ## Quotients -/

/-- The largest number of digits, at most `limit`, that can be appended to a quotient in range. -/
def roomFor (quotient : Nat) : Nat → Nat
  | 0 => 0
  | limit + 1 =>
    if quotient * 10 ^ (limit + 1) < 2 ^ 96 then limit + 1 else roomFor quotient limit

/-- Drops the last digit of a quotient that has left the range, with what follows it known to be
other than zero if `sticky`. -/
def dropDigit? (quotient : Nat) (scale : Int) (sticky : Bool) : Option (Nat × Int) :=
  if scale - 1 < 0 then none
  else
    let shorter := quotient / 10
    let digit := quotient % 10
    some (if 5 < digit ∨ (digit = 5 ∧ (sticky ∨ shorter % 2 = 1)) then shorter + 1 else shorter,
      scale - 1)

/-- Rounds a quotient with a remainder, ties to even. -/
def roundQuotient? (divisor quotient remainder : Nat) (scale : Int) : Option (Nat × Int) :=
  let twice := 2 * remainder
  if divisor < twice ∨ (twice = divisor ∧ quotient % 2 = 1) then
    (if quotient + 1 < 2 ^ 96 then some (quotient + 1, scale)
      else dropDigit? (quotient + 1) scale true)
  else some (quotient, scale)

/-- Extends a quotient by blocks of at most nine digits until it is exact or the range is used up.
The flag tells that a remainder was met. -/
def extendQuotient? (divisor : Nat) : Nat → Nat → Nat → Int → Bool → Option (Nat × Int × Bool)
  | 0, _, _, _, _ => none
  | more + 1, quotient, remainder, scale, inexact =>
    if remainder = 0 ∧ 0 ≤ scale then some (quotient, scale, inexact)
    else if remainder ≠ 0 ∧ scale = 28 then
      (roundQuotient? divisor quotient remainder scale).map fun (q, s) ↦ (q, s, true)
    else
      let block := if remainder = 0 then min 9 (-scale).toNat
        else roomFor quotient (min 9 (28 - scale).toNat)
      if remainder ≠ 0 ∧ block < 9 ∧ scale + block < 0 then none
      else if remainder ≠ 0 ∧ block = 0 then
        (roundQuotient? divisor quotient remainder scale).map fun (q, s) ↦ (q, s, true)
      else
        let widened := quotient * 10 ^ block
        if 2 ^ 96 ≤ widened then none
        else
          let inexact := inexact || remainder != 0
          let scaled := remainder * 10 ^ block
          let next := widened + scaled / divisor
          if next < 2 ^ 96 then
            extendQuotient? divisor more next (scaled % divisor) (scale + block) inexact
          else
            (dropDigit? next (scale + block) (scaled % divisor != 0)).map
              fun (q, s) ↦ (q, s, inexact)

/-- Drops `zeros` trailing zeros if the scale has room and the coefficient is divisible; the low bits
decide first whether it can be. -/
def dropZeros (lowBits zeros : Nat) (number : Nat × Int) : Nat × Int :=
  if number.1 % 2 ^ lowBits = 0 ∧ (zeros : Int) ≤ number.2 ∧ number.1 % 10 ^ zeros = 0 then
    (number.1 / 10 ^ zeros, number.2 - zeros)
  else number

/-- Drops trailing zeros of an extended quotient: eight at a time while the low word is zero, then
once four, two and one. -/
def unscale (number : Nat × Int) : Nat × Int :=
  let number := dropZeros 32 8 (dropZeros 32 8 (dropZeros 32 8 number))
  dropZeros 1 1 (dropZeros 2 2 (dropZeros 4 4 number))

/-- The quotient; there is none by zero. -/
def div? (a b : Decimal) : Option Decimal :=
  if b.isZero then none
  else if a.isZero then some zero
  else
    let divisor := b.coefficient.val
    match extendQuotient? divisor 64 (a.coefficient.val / divisor) (a.coefficient.val % divisor)
        ((a.scale.val : Int) - b.scale.val) false with
    | none => none
    | some (quotient, scale, inexact) =>
      let (quotient, scale) := if inexact then unscale (quotient, scale) else (quotient, scale)
      ofParts? (a.negative != b.negative) quotient scale.toNat

end DocMapping.Decimal
