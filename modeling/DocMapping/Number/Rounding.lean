import DocMapping.Number.Power

/-!
# Rounding Quotients

Integer roundings of an exact quotient.  Every inexact number of this library, binary or decimal, is
an exact quotient followed by one of these two functions.
-/

namespace DocMapping.Rounding

/-- The integer nearest to `numerator / denominator`; a tie goes to the even neighbour. -/
def halfEven (numerator denominator : Nat) : Nat :=
  let quotient := numerator / denominator
  let twice := 2 * (numerator % denominator)
  if denominator < twice ∨ (twice = denominator ∧ quotient % 2 = 1) then quotient + 1
  else quotient

/-- The integer nearest to `numerator / denominator`; a tie goes to the larger neighbour. -/
def halfUp (numerator denominator : Nat) : Nat :=
  let quotient := numerator / denominator
  if denominator ≤ 2 * (numerator % denominator) then quotient + 1 else quotient

/-- The number of decimal digits of a natural number; zero has one. -/
def digitCount (number : Nat) : Nat :=
  (Nat.toDigits 10 number).length

end DocMapping.Rounding
