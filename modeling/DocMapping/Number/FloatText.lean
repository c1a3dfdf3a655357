import DocMapping.Number.Shortest

/-!
# Texts of Floating-Point Numbers

Written forms are the shortest digits under a style: where positional notation ends and what marks a
whole number.  Reading takes a sign, digits with at most one point and an exponent, or one of the
names of the infinities and of the pattern that is not a number, in any case.
-/

namespace DocMapping.Binary64

/-- How a number is written: the leading exponents written positionally, and the mark of a whole
number. -/
structure NumeralStyle where
  positional : Int → Bool
  wholeMark : String

/-- Numbers in running text never have an exponent, and whole ones no point. -/
def plainStyle : NumeralStyle := ⟨fun _ ↦ true, ""⟩

/-- Constants in displayed expressions keep a point, and have an exponent below `10 ^ (-4)` and from
`10 ^ 16` on. -/
def constantStyle : NumeralStyle := ⟨fun leading ↦ -4 ≤ leading ∧ leading < 16, ".0"⟩

private def zeros (count : Nat) : String := String.ofList (List.replicate count '0')

/-- The digits with a point, or with zeros up to it. -/
def positionalText (style : NumeralStyle) (digits : String) (exponent : Int) : String :=
  let places := digits.length
  if 0 ≤ exponent then digits ++ zeros exponent.toNat ++ style.wholeMark
  else
    let whole := (places : Int) + exponent
    if 0 < whole then
      String.ofList (digits.toList.take whole.toNat) ++ "." ++
        String.ofList (digits.toList.drop whole.toNat)
    else "0." ++ zeros (-whole).toNat ++ digits

/-- One digit, the others after a point, and the exponent. -/
def scientificText (digits : String) (leading : Int) : String :=
  let rest := String.ofList (digits.toList.drop 1)
  String.ofList (digits.toList.take 1) ++ (if rest = "" then "" else "." ++ rest) ++ "e" ++
    toString leading

/-- Writes a number in a style. -/
def text (style : NumeralStyle) (x : Binary64) : String :=
  if x.isNaN then "NaN" else
  let sign := if x.negative then "-" else ""
  if x.isInfinite then sign ++ "inf"
  else if x.isZero then sign ++ "0" ++ style.wholeMark
  else
    let shortest := x.digits
    let digits := toString shortest.coefficient
    let leading := shortest.exponent + (digits.length : Int) - 1
    if style.positional leading then sign ++ positionalText style digits shortest.exponent
    else sign ++ scientificText digits leading

/-- The text of a number in messages and concatenations. -/
def plainText (x : Binary64) : String := x.text plainStyle

/-- The text of a number inside a displayed constant. -/
def constantText (x : Binary64) : String := x.text constantStyle

/-! ## Reading -/

/-- The number nearest to `coefficient * 10 ^ exponent`. -/
def ofDecimal (negative : Bool) (coefficient : Nat) (exponent : Int) : Binary64 :=
  let leading := (Rounding.digitCount coefficient : Int) + exponent
  if coefficient = 0 ∨ leading < -330 then zero negative
  else if 310 < leading then infinity negative
  else ofRatio negative (coefficient * 10 ^ exponent.toNat) (10 ^ (-exponent).toNat)

/-- The value of a run of decimal digits. -/
def digitsValue (digits : List Char) : Nat :=
  digits.foldl (fun total digit ↦ total * 10 + (digit.toNat - '0'.toNat)) 0

/-- An optional sign in front of a text: whether it is a minus, and the rest. -/
def splitSign : List Char → Bool × List Char
  | '-' :: rest => (true, rest)
  | '+' :: rest => (false, rest)
  | rest => (false, rest)

/-- The exponent after the digits, zero if there is none. -/
def readExponent? : List Char → Option Int
  | [] => some 0
  | mark :: rest =>
    if mark = 'e' ∨ mark = 'E' then
      let (negative, digits) := splitSign rest
      if digits.isEmpty ∨ !digits.all Char.isDigit then none
      else some (if negative then -(digitsValue digits : Int) else digitsValue digits)
    else none

/-- Digits with at most one point, then an exponent. -/
def readNumeral? (negative : Bool) (text : List Char) : Option Binary64 :=
  let whole := text.takeWhile Char.isDigit
  let (fraction, rest) :=
    match text.dropWhile Char.isDigit with
    | '.' :: rest => (rest.takeWhile Char.isDigit, rest.dropWhile Char.isDigit)
    | rest => ([], rest)
  if whole.isEmpty ∧ fraction.isEmpty then none
  else (readExponent? rest).map fun exponent ↦
    ofDecimal negative (digitsValue (whole ++ fraction)) (exponent - fraction.length)

/-- Reads a number from a text. -/
def ofText? (text : String) : Option Binary64 :=
  let (negative, rest) := splitSign text.toList
  let name := String.ofList (rest.map Char.toLower)
  if name = "inf" ∨ name = "infinity" then some (infinity negative)
  else if name = "nan" then some (nan negative)
  else readNumeral? negative rest

end DocMapping.Binary64
