import DocMapping.Number.Binary64

/-!
# Shortest Decimal Digits

The fewest decimal digits that read back as a given binary floating-point number, and of those the
nearest to it.  The reals that round to a number form an interval around it, whose ends belong to it
when the significand is even.  A grid of powers of ten meets the interval only if one of the number's
two neighbours on that grid lies in it, so two candidates per digit count suffice.
-/

namespace DocMapping.Binary64

/-- A decimal number `coefficient * 10 ^ exponent`. -/
structure Digits where
  coefficient : Nat
  exponent : Int
deriving DecidableEq, Repr

/-- The decimal exponent of the leading digit of a finite number other than zero. -/
def leadingExponent (x : Binary64) : Int :=
  let numerator := x.magnitude
  let denominator := 2 ^ 1074
  if denominator ≤ numerator then
    ((Rounding.digitCount (numerator / denominator) : Nat) : Int) - 1
  else
    -((Rounding.digitCount ((denominator - 1) / numerator) : Nat) : Int)

/-- The neighbour of a finite number on the grid of multiples of `10 ^ exponent` that reads back as
it, if there is one.  Distances are counted in units of `2 ^ (-1076)`. -/
def nearestOnGrid? (x : Binary64) (exponent : Int) : Option Nat :=
  let widen := 10 ^ (-exponent).toNat
  let spacing := 2 ^ 1076 * 10 ^ exponent.toNat
  let value := 4 * x.magnitude * widen
  let above := 2 * 2 ^ x.place * widen
  let below := if x.significand = 2 ^ 52 ∧ 1 < x.exponent.val then 2 ^ x.place * widen else above
  let closed := x.significand % 2 = 0
  let lower := value / spacing
  let upper := lower + 1
  let lowerFits := value < lower * spacing + below ∨ (closed ∧ value = lower * spacing + below)
  let upperFits := upper * spacing < value + above ∨ (closed ∧ upper * spacing = value + above)
  if lowerFits ∧ upperFits then
    some (if 2 * (value - lower * spacing) < spacing then lower else upper)
  else if lowerFits then some lower
  else if upperFits then some upper
  else none

/-- Tries ever finer grids. -/
def digitsFrom (x : Binary64) : Nat → Int → Digits
  | 0, exponent => ⟨4 * x.magnitude * 10 ^ (-exponent).toNat / (2 ^ 1076 * 10 ^ exponent.toNat), exponent⟩
  | more + 1, exponent =>
    match x.nearestOnGrid? exponent with
    | some coefficient => ⟨coefficient, exponent⟩
    | none => x.digitsFrom more (exponent - 1)

/-- The shortest digits of a finite number other than zero; seventeen always suffice.  The first grid is
one place above the leading digit, for a number just below a power of ten. -/
def digits (x : Binary64) : Digits :=
  x.digitsFrom 18 (x.leadingExponent + 1)

end DocMapping.Binary64
