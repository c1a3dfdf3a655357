import DocMapping.Value

/-!
# Digests of Values

The bytes that a value contributes to a hash, so that equal values contribute equal bytes: numbers in
little-endian order, texts with an end mark, guids as their sixteen bytes, other byte strings and
collections after their length, decimals without trailing zeros, and zero doubles without their sign.
The container of a collection and the shape of a record contribute nothing.
-/

namespace DocMapping.Value

/-- The low `count` bytes of a number, the least significant first. -/
def littleEndian : Nat → Nat → List UInt8
  | 0, _ => []
  | count + 1, number => UInt8.ofNat number :: littleEndian count (number / 256)

/-- The bytes of a signed number in two's complement. -/
def signedBytes (count : Nat) (number : Int) : List UInt8 :=
  littleEndian count (number % 256 ^ count).toNat

/-- The bytes of a text and its end mark. -/
def textBytes (text : String) : List UInt8 := text.toUTF8.toList ++ [255]

/-- The length of a byte string and its bytes. -/
def lengthBytes (bytes : List UInt8) : List UInt8 := littleEndian 8 bytes.length ++ bytes

/-- The class of a year by its first weekday and by whether it is a leap year. -/
def yearClass (year : Int) : Nat :=
  let weekday := ((Date.dayNumber year 1 1 + 3) % 7).toNat
  (if Date.isLeap year then 0 else 8) + (weekday + 5) % 7 + 1

/-- A date packed as year, day of the year and class of the year. -/
def dateBytes (d : Date) : List UInt8 :=
  signedBytes 4 (d.year * 2 ^ 13 + (d.ordinal * 16 + yearClass d.year : Nat))

def timeBytes (t : Time) : List UInt8 :=
  littleEndian 4 t.second.val ++ littleEndian 4 t.nanosecond.val

def kindNumber : DateTimeKind → Nat
  | .unspecified => 0
  | .utc => 1
  | .local => 2

/-- A decimal number without trailing zeros: its coefficient, scale and sign. -/
def decimalBytes (d : Decimal) : List UInt8 :=
  let d := d.normalize
  littleEndian 12 d.coefficient.val ++
    littleEndian 4 (d.scale.val * 65536 + if d.negative then 2 ^ 31 else 0)

mutual

/-- The bytes of a value. -/
def digest : Value → List UInt8
  | null => [0]
  | bool value => [if value then 1 else 0]
  | int32 value => signedBytes 4 value.toInt
  | int64 value => signedBytes 8 value.toInt
  | enum value => signedBytes 8 value.toInt
  | double value => littleEndian 8 (if value.isZero then 0 else value.bits)
  | decimal value => decimalBytes value
  | string value => textBytes value
  | guid value => value.bytes
  | objectId value => lengthBytes value.bytes
  | bytes value => lengthBytes value
  | dateTime value =>
    dateBytes value.moment.date ++ timeBytes value.moment.time ++
      littleEndian 8 (kindNumber value.kind)
  | date value => dateBytes value
  | time value => timeBytes value
  | collection _ items => littleEndian 8 items.length ++ digestItems items
  | entity type members => textBytes type ++ digestFields members
  | record _ fields => digestFields fields

def digestItems : List Value → List UInt8
  | [] => []
  | item :: rest => digest item ++ digestItems rest

def digestFields : List (String × Value) → List UInt8
  | [] => []
  | (name, value) :: rest => textBytes name ++ digest value ++ digestFields rest

end

end DocMapping.Value
