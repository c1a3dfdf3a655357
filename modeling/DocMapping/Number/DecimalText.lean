import DocMapping.Number.DecimalArithmetic

/-!
# Reading Decimal Numbers

A sign, digits with at most one point, and low lines between them.  Behind the 28th digit after the
point, or where the next digit would leave the 96 bits, one more digit decides a rounding and the rest
must be digits that count for nothing.  A low line behind the 28th digit is that digit, a zero, unless
the coefficient has outgrown 64 bits: then the low line is passed over.  A text with an exponent is
the number before it, moved by the exponent and rounded again where it would have more than 28 digits
after the point.
-/

namespace DocMapping.Decimal

/-- The value of a decimal digit. -/
def digit? (c : Char) : Option Nat :=
  if c.isDigit then some (c.toNat - '0'.toNat) else none

/-- What may follow the digit that decides a rounding. -/
def isSurplus (rest : List Char) : Bool := rest.all fun c ↦ c.isDigit || c = '_'

/-- Ends a numeral at a digit that no longer fits; one from five on rounds up. -/
def roundAt? (negative : Bool) (coefficient scale digit : Nat) (rest : List Char) :
    Option Decimal :=
  let rounded := if 5 ≤ digit then coefficient + 1 else coefficient
  if !isSurplus rest then none
  else if rounded < 2 ^ 96 then ofParts? negative rounded scale
  else if scale = 0 then none
  else ofParts? negative ((rounded + 4) / 10) (scale - 1)

/-- The coefficient may have outgrown 64 bits before its last digit was read. -/
def isWide (coefficient : Nat) : Bool := (2 ^ 64 - 1) / 10 - 255 ≤ coefficient / 10

/-- Reads what follows the 28th digit after the point. -/
def readSurplus? (negative : Bool) (coefficient scale : Nat) : List Char → Option Decimal
  | [] => ofParts? negative coefficient scale
  | c :: rest =>
    match digit? c with
    | some digit => roundAt? negative coefficient scale digit rest
    | none =>
      if c ≠ '_' then none
      else if isWide coefficient then readSurplus? negative coefficient scale rest
      else roundAt? negative coefficient scale 0 rest

/-- Reads the digits of a numeral; `point` tells that the point was passed and `started` that a digit
was read. -/
def readDigits? (negative : Bool) :
    Bool → Bool → Nat → Nat → List Char → Option Decimal
  | _, started, coefficient, scale, [] =>
    if started then ofParts? negative coefficient scale else none
  | point, started, coefficient, scale, c :: rest =>
    match digit? c with
    | some digit =>
      let next := coefficient * 10 + digit
      if 2 ^ 96 ≤ next then (if point then roundAt? negative coefficient scale digit rest else none)
      else if !point then readDigits? negative point true next scale rest
      else if scale + 1 < 28 then readDigits? negative point true next (scale + 1) rest
      else readSurplus? negative next (scale + 1) rest
    | none =>
      if c = '.' ∧ !point then readDigits? negative true started coefficient scale rest
      else if c = '_' ∧ started then readDigits? negative point started coefficient scale rest
      else none

/-- Reads a numeral without an exponent. -/
def ofPlain? : List Char → Option Decimal
  | '-' :: rest => readDigits? true false false 0 0 rest
  | '+' :: rest => readDigits? false false false 0 0 rest
  | text => readDigits? false false false 0 0 text

/-- The value of digits, optionally after a plus sign, below `2 ^ 32`. -/
def shift? (text : List Char) : Option Nat :=
  let digits := match text with
    | '+' :: rest => rest
    | digits => digits
  if digits.isEmpty ∨ !digits.all Char.isDigit then none
  else
    let value := digits.foldl (fun total c ↦ total * 10 + (c.toNat - '0'.toNat)) 0
    if value < 2 ^ 32 then some value else none

/-- The same coefficient under another scale. -/
def withScale? (d : Decimal) (scale : Nat) : Option Decimal :=
  if h : scale < 29 then some { d with scale := ⟨scale, h⟩ } else none

/-- Moves a number down by a power of ten of at most 28; where the scale cannot take it all, digits
are dropped with the half going away from zero. -/
def scaleDown? (d : Decimal) (shift : Nat) : Option Decimal :=
  if 28 < shift then none
  else
    let surplus := d.scale.val + shift - 28
    let coefficient := Rounding.halfUp d.coefficient.val (10 ^ surplus)
    some (wrap d.negative coefficient (d.scale.val + shift - surplus))

/-- Moves a number up by a power of ten that its scale cannot absorb. -/
def scaleUp? (d : Decimal) (shift : Nat) : Option Decimal :=
  if 28 < shift then none
  else
    let first := min shift 19
    (d.mul? (ofInt (10 ^ first))).bind fun moved ↦
      if shift = first then some moved.normalize
      else (moved.mul? (ofInt (10 ^ (shift - first)))).map normalize

/-- Reads a numeral with an exponent. -/
def ofScientific? (text : List Char) : Option Decimal :=
  let isMark := fun c ↦ c = 'e' ∨ c = 'E'
  (ofPlain? (text.takeWhile fun c ↦ !isMark c)).bind fun base ↦
    match text.dropWhile fun c ↦ !isMark c with
    | _ :: '-' :: exponent =>
      (shift? exponent).bind base.scaleDown?
    | _ :: exponent =>
      (shift? exponent).bind fun shift ↦
        if shift ≤ base.scale.val then base.withScale? (base.scale.val - shift)
        else base.scaleUp? shift
    | [] => none

/-- Reads a decimal number from a text. -/
def ofText? (text : String) : Option Decimal :=
  (ofPlain? text.toList).or (ofScientific? text.toList)

end DocMapping.Decimal
