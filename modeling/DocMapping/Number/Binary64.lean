import DocMapping.Number.Rounding

/-!
# Binary Floating-Point Numbers

The 64-bit binary format by its three fields.  A finite number is a whole multiple of `2 ^ (-1074)`,
so comparison, truncation and arithmetic are exact integer computations followed by one rounding to
the nearest number, ties to the even significand.

An invalid operation answers the quiet pattern with the sign set, and an operation on a pattern that
is not a number passes the first such operand on.
-/

namespace DocMapping

/-- A 64-bit binary floating-point number: sign, biased exponent and fraction. -/
structure Binary64 where
  negative : Bool
  exponent : Fin 2048
  fraction : Fin (2 ^ 52)
deriving DecidableEq

namespace Binary64

/-! ## Bit patterns -/

/-- Reads a bit pattern, sign bit first. -/
def ofBits (bits : Nat) : Binary64 where
  negative := bits / 2 ^ 63 % 2 = 1
  exponent := Fin.ofNat 2048 (bits / 2 ^ 52)
  fraction := lowBits 52 bits

/-- The bit pattern without its sign. -/
def magnitudeBits (x : Binary64) : Nat :=
  x.exponent.val * 2 ^ 52 + x.fraction.val

/-- The bit pattern, sign bit first. -/
def bits (x : Binary64) : Nat :=
  (if x.negative then 2 ^ 63 else 0) + x.magnitudeBits

def zero (negative : Bool) : Binary64 := ⟨negative, 0, 0⟩

def infinity (negative : Bool) : Binary64 := ⟨negative, 2047, 0⟩

/-- The quiet pattern that is not a number and has an empty payload. -/
def nan (negative : Bool) : Binary64 := ⟨negative, 2047, lowBits 52 (2 ^ 51)⟩

/-! ## Classes of numbers -/

def isNaN (x : Binary64) : Bool := x.exponent.val = 2047 ∧ x.fraction.val ≠ 0

def isInfinite (x : Binary64) : Bool := x.exponent.val = 2047 ∧ x.fraction.val = 0

def isFinite (x : Binary64) : Bool := x.exponent.val < 2047

def isZero (x : Binary64) : Bool := x.exponent.val = 0 ∧ x.fraction.val = 0

/-! ## Exact values -/

/-- The significand of a finite number, with its hidden bit. -/
def significand (x : Binary64) : Nat :=
  if x.exponent.val = 0 then x.fraction.val else 2 ^ 52 + x.fraction.val

/-- The power of two of the last place of a finite number, counted from `2 ^ (-1074)`. -/
def place (x : Binary64) : Nat := x.exponent.val - 1

/-- The magnitude of a finite number as a multiple of `2 ^ (-1074)`. -/
def magnitude (x : Binary64) : Nat := x.significand * 2 ^ x.place

/-- A finite number as a multiple of `2 ^ (-1074)`. -/
def units (x : Binary64) : Int :=
  if x.negative then -(x.magnitude : Int) else x.magnitude

/-- Rounds `numerator / denominator` to the nearest number, beyond the largest one to infinity. -/
def ofRatio (negative : Bool) (numerator denominator : Nat) : Binary64 :=
  let scaled := numerator * 2 ^ 1074
  let place := (scaled / denominator).log2 - 52
  let significand := Rounding.halfEven scaled (denominator * 2 ^ place)
  let packed := place * 2 ^ 52 + significand
  if packed < 2047 * 2 ^ 52 then
    ⟨negative, Fin.ofNat 2048 (packed / 2 ^ 52), lowBits 52 packed⟩
  else infinity negative

def ofNat (number : Nat) : Binary64 := ofRatio false number 1

def ofInt (number : Int) : Binary64 := ofRatio (number < 0) number.natAbs 1

/-- The number without its fractional digits, moved into the range `lower` to `upper`; a pattern that
is not a number gives zero. -/
def truncateInto (lower upper : Int) (x : Binary64) : Int :=
  if x.isNaN then 0
  else if x.isInfinite then (if x.negative then lower else upper)
  else
    let whole : Int := (x.magnitude / 2 ^ 1074 : Nat)
    max lower (min upper (if x.negative then -whole else whole))

/-- A finite number has digits after the point. -/
def hasFraction (x : Binary64) : Bool :=
  x.isFinite && x.magnitude % 2 ^ 1074 != 0

/-! ## Order -/

/-- The numeric order; nothing is comparable with a pattern that is not a number. -/
def compare? (x y : Binary64) : Option Ordering :=
  if x.isNaN || y.isNaN then none else
  if x.isZero && y.isZero then some .eq else
  match x.negative, y.negative with
  | true, false => some .lt
  | false, true => some .gt
  | false, false => some (compare x.magnitudeBits y.magnitudeBits)
  | true, true => some (compare y.magnitudeBits x.magnitudeBits)

/-- Numeric equality: both zeros are equal, and no pattern that is not a number equals anything. -/
def numericEq (x y : Binary64) : Bool := x.compare? y == some .eq

/-- The position in the total order of all bit patterns: negative ones by falling magnitude, then
positive ones by rising magnitude. -/
def rank (x : Binary64) : Int :=
  if x.negative then -(x.magnitudeBits : Int) - 1 else x.magnitudeBits

/-! ## Arithmetic -/

def neg (x : Binary64) : Binary64 := { x with negative := !x.negative }

/-- The same pattern with the quiet bit set. -/
def quiet (x : Binary64) : Binary64 :=
  { x with fraction := lowBits 52 (x.fraction.val % 2 ^ 51 + 2 ^ 51) }

/-- What an operation answers when an operand is not a number. -/
def propagated (x y : Binary64) : Option Binary64 :=
  if x.isNaN then some x.quiet else if y.isNaN then some y.quiet else none

/-- Rounds a multiple of `2 ^ (-1074)`. -/
def ofUnits (units : Int) : Binary64 :=
  ofRatio (units < 0) units.natAbs (2 ^ 1074)

def add (x y : Binary64) : Binary64 :=
  match propagated x y with
  | some pattern => pattern
  | none =>
    if x.isInfinite then (if y.isInfinite && x.negative != y.negative then nan true else x)
    else if y.isInfinite then y
    else
      let sum := x.units + y.units
      if sum = 0 then zero (x.negative && y.negative) else ofUnits sum

def sub (x y : Binary64) : Binary64 :=
  match propagated x y with
  | some pattern => pattern
  | none => x.add y.neg

def mul (x y : Binary64) : Binary64 :=
  match propagated x y with
  | some pattern => pattern
  | none =>
    let negative := x.negative != y.negative
    if x.isInfinite || y.isInfinite then
      (if x.isZero || y.isZero then nan true else infinity negative)
    else ofRatio negative (x.magnitude * y.magnitude) (2 ^ 1074 * 2 ^ 1074)

def div (x y : Binary64) : Binary64 :=
  match propagated x y with
  | some pattern => pattern
  | none =>
    let negative := x.negative != y.negative
    if x.isInfinite then (if y.isInfinite then nan true else infinity negative)
    else if y.isInfinite then zero negative
    else if y.isZero then (if x.isZero then nan true else infinity negative)
    else ofRatio negative x.magnitude y.magnitude

/-- The nearest whole number; a tie goes away from zero. -/
def round (x : Binary64) : Binary64 :=
  if x.isFinite then ofRatio x.negative (Rounding.halfUp x.magnitude (2 ^ 1074)) 1 else x

/-- Repeated squaring from `result`, taking a square for every set bit of `exponent`. -/
def powLoop : Nat → Binary64 → Binary64 → Nat → Binary64
  | 0, result, _, _ => result
  | fuel + 1, result, base, exponent =>
    let result := if exponent % 2 = 1 then result.mul base else result
    if exponent / 2 = 0 then result else powLoop fuel result (base.mul base) (exponent / 2)

/-- A whole power by repeated squaring, each product rounded; a negative power is the reciprocal. -/
def pow (base : Binary64) (exponent : Int) : Binary64 :=
  let positive := powLoop (exponent.natAbs.log2 + 1) (ofNat 1) base exponent.natAbs
  if exponent < 0 then (ofNat 1).div positive else positive

end Binary64

end DocMapping
