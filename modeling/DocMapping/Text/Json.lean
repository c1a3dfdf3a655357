import DocMapping.Text.Bytes

/-!
# JSON Texts

A strict reader of JSON.  Members of objects keep their order and may repeat.  Numbers are kept as they
are written, and a text with an unpaired surrogate is read as a text without characters, since it has
none that could be told; whoever needs the characters must refuse it.
-/

namespace DocMapping.Text

inductive Json where
  | null
  | boolean (value : Bool)
  | number (text : String)
  | string (text : Option String)
  | array (items : List Json)
  | object (members : List (Option String × Json))

namespace Json

/-! ## Blanks and numbers -/

def isBlank (c : Char) : Bool := c == ' ' || c == '\n' || c == '\t' || c == '\r'

def skipBlanks (text : List Char) : List Char := text.dropWhile isBlank

/-- At least one digit, and the rest. -/
def digits? (text : List Char) : Option (List Char × List Char) :=
  let digits := text.takeWhile Char.isDigit
  if digits.isEmpty then none else some (digits, text.dropWhile Char.isDigit)

/-- A whole number without leading zeros. -/
def whole? (text : List Char) : Option (List Char × List Char) :=
  (digits? text).bind fun (digits, rest) ↦
    if digits.head? = some '0' ∧ 1 < digits.length then none else some (digits, rest)

/-- The digits after a point, if there is one. -/
def fraction? : List Char → Option (List Char × List Char)
  | '.' :: rest => (digits? rest).map fun (digits, rest) ↦ ('.' :: digits, rest)
  | rest => some ([], rest)

def signed? : List Char → Option (List Char × List Char)
  | '+' :: rest => (digits? rest).map fun (digits, rest) ↦ ('+' :: digits, rest)
  | '-' :: rest => (digits? rest).map fun (digits, rest) ↦ ('-' :: digits, rest)
  | rest => digits? rest

/-- The exponent, if there is one. -/
def exponent? : List Char → Option (List Char × List Char)
  | 'e' :: rest => (signed? rest).map fun (digits, rest) ↦ ('e' :: digits, rest)
  | 'E' :: rest => (signed? rest).map fun (digits, rest) ↦ ('E' :: digits, rest)
  | rest => some ([], rest)

/-- A number in front of a text, as it is written. -/
def number? (text : List Char) : Option (String × List Char) := do
  let (sign, rest) :=
    match text with
    | '-' :: rest => (['-'], rest)
    | rest => ([], rest)
  let (whole, rest) ← whole? rest
  let (fraction, rest) ← fraction? rest
  let (exponent, rest) ← exponent? rest
  return (String.ofList (sign ++ whole ++ fraction ++ exponent), rest)

/-! ## Strings -/

/-- The character of a single escape. -/
def escape? : Char → Option Char
  | '"' => some '"'
  | '\\' => some '\\'
  | '/' => some '/'
  | 'b' => some '\x08'
  | 'f' => some '\x0c'
  | 'n' => some '\n'
  | 'r' => some '\r'
  | 't' => some '\t'
  | _ => none

/-- The code unit of four hexadecimal digits. -/
def unit? (a b c d : Char) : Option Nat := readHex? [a, b, c, d]

/-- The code units of a string up to its closing quote, and the rest.  A character that is not
escaped counts as one unit. -/
def units? : List Char → Option (List Nat × List Char)
  | [] => none
  | '"' :: rest => some ([], rest)
  | '\\' :: 'u' :: a :: b :: c :: d :: rest => do
    let unit ← unit? a b c d
    let (units, rest) ← units? rest
    return (unit :: units, rest)
  | '\\' :: c :: rest => do
    let escaped ← escape? c
    let (units, rest) ← units? rest
    return (escaped.toNat :: units, rest)
  | '\\' :: [] => none
  | c :: rest =>
    if c.toNat < 32 then none
    else (units? rest).map fun (units, rest) ↦ (c.toNat :: units, rest)

def isHighSurrogate (unit : Nat) : Bool := 0xD800 ≤ unit && unit < 0xDC00

def isLowSurrogate (unit : Nat) : Bool := 0xDC00 ≤ unit && unit < 0xE000

/-- The characters of code units, if all surrogates are paired. -/
def characters? : List Nat → Option (List Char)
  | [] => some []
  | [unit] =>
    if isHighSurrogate unit || isLowSurrogate unit then none else some [Char.ofNat unit]
  | unit :: next :: rest =>
    if isHighSurrogate unit then
      (if isLowSurrogate next then
        (characters? rest).map fun others ↦
          Char.ofNat (0x10000 + (unit - 0xD800) * 0x400 + (next - 0xDC00)) :: others
        else none)
    else if isLowSurrogate unit then none
    else (characters? (next :: rest)).map fun others ↦ Char.ofNat unit :: others

/-- A string after its opening quote. -/
def string? (text : List Char) : Option (Option String × List Char) :=
  (units? text).map fun (units, rest) ↦ ((characters? units).map String.ofList, rest)

/-! ## Values -/

/-- The rest after a character, blanks in front of it skipped. -/
def expect? (c : Char) (text : List Char) : Option (List Char) :=
  match skipBlanks text with
  | other :: rest => if other = c then some rest else none
  | [] => none

mutual

/-- A value in front of a text, read with at most `fuel` nested steps. -/
def value? : Nat → List Char → Option (Json × List Char)
  | 0, _ => none
  | fuel + 1, text =>
    match skipBlanks text with
    | 'n' :: 'u' :: 'l' :: 'l' :: rest => some (null, rest)
    | 't' :: 'r' :: 'u' :: 'e' :: rest => some (boolean true, rest)
    | 'f' :: 'a' :: 'l' :: 's' :: 'e' :: rest => some (boolean false, rest)
    | '"' :: rest => (string? rest).map fun (text, rest) ↦ (string text, rest)
    | '[' :: rest =>
      match expect? ']' rest with
      | some rest => some (array [], rest)
      | none => (items? fuel rest).map fun (items, rest) ↦ (array items, rest)
    | '\x7b' :: rest =>
      match expect? '\x7d' rest with
      | some rest => some (object [], rest)
      | none => (members? fuel rest).map fun (members, rest) ↦ (object members, rest)
    | rest => (number? rest).map fun (text, rest) ↦ (number text, rest)

/-- The items of an array up to its closing bracket. -/
def items? : Nat → List Char → Option (List Json × List Char)
  | 0, _ => none
  | fuel + 1, text => do
    let (item, rest) ← value? fuel text
    match skipBlanks rest with
    | ',' :: rest => (items? fuel rest).map fun (items, rest) ↦ (item :: items, rest)
    | ']' :: rest => some ([item], rest)
    | _ => none

/-- The members of an object up to its closing brace. -/
def members? : Nat → List Char → Option (List (Option String × Json) × List Char)
  | 0, _ => none
  | fuel + 1, text => do
    let rest ← expect? '"' text
    let (name, rest) ← string? rest
    let rest ← expect? ':' rest
    let (value, rest) ← value? fuel rest
    match skipBlanks rest with
    | ',' :: rest => (members? fuel rest).map fun (members, rest) ↦ ((name, value) :: members, rest)
    | '\x7d' :: rest => some ([(name, value)], rest)
    | _ => none

end

/-- The value that a text writes, with nothing but blanks around it.  Every two nested steps read a
character. -/
def ofText? (text : String) : Option Json :=
  match value? (2 * text.length + 2) text.toList with
  | some (value, rest) => if (skipBlanks rest).isEmpty then some value else none
  | none => none

end Json

end DocMapping.Text
