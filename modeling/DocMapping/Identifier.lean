import DocMapping.Text.Bytes

/-!
# Identifiers

The two generated kinds of identifier: object identifiers of 96 bits and guids of 128 bits, with their
written forms.  New identifiers come from a source, an unbounded supply of each kind, and a count of
those already taken.
-/

namespace DocMapping

/-- A 96-bit identifier of a document. -/
structure ObjectId where
  value : Fin (2 ^ 96)
deriving DecidableEq

/-- A 128-bit identifier. -/
structure Guid where
  value : Fin (2 ^ 128)
deriving DecidableEq

namespace ObjectId

/-- Twenty-four lower-case hexadecimal digits. -/
def text (id : ObjectId) : String := String.ofList (Text.hexDigits 24 id.value.val)

def bytes (id : ObjectId) : List UInt8 := Text.bytesOfNat 12 id.value.val

/-- Reads twenty-four hexadecimal digits in any case. -/
def ofText? (text : String) : Option ObjectId :=
  if text.toList.length = 24 then
    (Text.readHex? text.toList).map fun value ↦ ⟨lowBits 96 value⟩
  else none

end ObjectId

namespace Guid

def bytes (id : Guid) : List UInt8 := Text.bytesOfNat 16 id.value.val

/-- The guid of sixteen bytes; of others the last sixteen count. -/
def ofBytes (bytes : List UInt8) : Guid := ⟨lowBits 128 (Text.natOfBytes bytes)⟩

/-- Lower-case hexadecimal digits in groups of eight, four, four, four and twelve. -/
def text (id : Guid) : String :=
  let digits := Text.hexDigits 32 id.value.val
  String.ofList (digits.take 8 ++ '-' :: (digits.drop 8).take 4 ++ '-' :: (digits.drop 12).take 4 ++
    '-' :: (digits.drop 16).take 4 ++ '-' :: digits.drop 20)

/-- The guid of thirty-two digits. -/
def ofDigits? (digits : List Char) : Option Guid :=
  if digits.length = 32 then
    (Text.readHex? digits).map fun value ↦ ⟨lowBits 128 value⟩
  else none

/-- The guid of digits in hyphenated groups. -/
def ofGroups? (text : List Char) : Option Guid :=
  let group := fun start length ↦ (text.drop start).take length
  if text.length = 36 ∧ group 8 1 = ['-'] ∧ group 13 1 = ['-'] ∧ group 18 1 = ['-'] ∧
      group 23 1 = ['-'] then
    ofDigits? (group 0 8 ++ group 9 4 ++ group 14 4 ++ group 19 4 ++ group 24 12)
  else none

/-- Reads plain digits, or hyphenated groups alone, in braces or after their resource name, which may
be in any case. -/
def ofText? (text : String) : Option Guid :=
  let text := text.toList
  let resource := "urn:uuid:".toList
  if text.length = 32 then ofDigits? text
  else if text.length = 36 then ofGroups? text
  else if text.length = 38 ∧ text.head? = some '\x7b' ∧ text.getLast? = some '\x7d' then
    ofGroups? ((text.drop 1).take 36)
  else if text.length = 45 ∧ (text.take 9).map Char.toLower = resource then ofGroups? (text.drop 9)
  else none

end Guid

/-- An unbounded supply of identifiers of both kinds. -/
structure IdSource where
  objectId : Nat → ObjectId
  guid : Nat → Guid

namespace IdSource

/-- No identifier of the source is the one of all zeros. -/
def NonZero (source : IdSource) : Prop :=
  ∀ n, (source.objectId n).value.val ≠ 0 ∧ (source.guid n).value.val ≠ 0

/-- Counts up from a base: object identifiers in rising order, and guids of the random version. -/
def counting (objectBase guidBase : Nat) : IdSource where
  objectId n := ⟨lowBits 96 (objectBase + n)⟩
  guid n := ⟨lowBits 128 (guidBase + n)⟩

end IdSource

end DocMapping
