import DocMapping.Number.Power

/-!
# Texts of Bytes

Two written forms of byte strings: hexadecimal digits, two to a byte, and the 64-character alphabet,
four characters to three bytes with padding at the end.
-/

namespace DocMapping.Text

/-! ## Hexadecimal digits -/

/-- The value of a hexadecimal digit in either case. -/
def hexValue? (c : Char) : Option Nat :=
  if c.isDigit then some (c.toNat - '0'.toNat)
  else if 'a' ≤ c ∧ c ≤ 'f' then some (c.toNat - 'a'.toNat + 10)
  else if 'A' ≤ c ∧ c ≤ 'F' then some (c.toNat - 'A'.toNat + 10)
  else none

/-- The lower-case digits of a number, padded with zeros to a width. -/
def hexDigits (width number : Nat) : List Char :=
  let digits := Nat.toDigits 16 number
  List.replicate (width - digits.length) '0' ++ digits

/-- The number written by hexadecimal digits, none of which may be missing. -/
def readHex? (digits : List Char) : Option Nat :=
  digits.foldl (fun total? c ↦ total?.bind fun total ↦ (hexValue? c).map (total * 16 + ·)) (some 0)

/-- The bytes written by hexadecimal digits, two to a byte. -/
def readHexBytes? : List Char → Option (List UInt8)
  | [] => some []
  | [_] => none
  | high :: low :: rest => do
    let byte ← readHex? [high, low]
    return UInt8.ofNat byte :: (← readHexBytes? rest)

/-! ## Big-endian bytes -/

/-- The last `count` bytes of a number, the most significant first. -/
def bytesOfNat : Nat → Nat → List UInt8
  | 0, _ => []
  | count + 1, number => UInt8.ofNat (number / 256 ^ count) :: bytesOfNat count number

/-- The number of a byte string, the most significant byte first. -/
def natOfBytes (bytes : List UInt8) : Nat :=
  bytes.foldl (fun total byte ↦ total * 256 + byte.toNat) 0

/-! ## Sixty-four characters -/

/-- The character of six bits. -/
def sextet (value : Nat) : Char :=
  if value < 26 then Char.ofNat ('A'.toNat + value)
  else if value < 52 then Char.ofNat ('a'.toNat + (value - 26))
  else if value < 62 then Char.ofNat ('0'.toNat + (value - 52))
  else if value = 62 then '+' else '/'

/-- Four characters for every three bytes. -/
def base64List : List UInt8 → List Char
  | a :: b :: c :: rest =>
    let group := a.toNat * 65536 + b.toNat * 256 + c.toNat
    sextet (group / 262144) :: sextet (group / 4096 % 64) :: sextet (group / 64 % 64) ::
      sextet (group % 64) :: base64List rest
  | [a, b] =>
    let group := a.toNat * 1024 + b.toNat * 4
    [sextet (group / 4096), sextet (group / 64 % 64), sextet (group % 64), '=']
  | [a] =>
    let group := a.toNat * 16
    [sextet (group / 64), sextet (group % 64), '=', '=']
  | [] => []

/-- The padded text of a byte string in the 64-character alphabet. -/
def base64 (bytes : List UInt8) : String :=
  String.ofList (base64List bytes)

end DocMapping.Text
