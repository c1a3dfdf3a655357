import DocMapping.Calendar.Zone
import DocMapping.Text.Lowercase
import DocMapping.Value

/-!
# Properties

What is known of a mapped member before any value is seen: the kind of value it holds, the form in
which documents store it, which lossy conversions are permitted, and how a missing key is generated.
-/

namespace DocMapping

/-! ## Kinds of values -/

/-- A named enumeration and its members in order. -/
structure EnumType where
  name : String
  members : List (String × Int64)
deriving DecidableEq

namespace EnumType

/-- The name of the first member with a number. -/
def nameOf? (type : EnumType) (value : Int64) : Option String :=
  (type.members.find? fun entry ↦ entry.2 == value).map Prod.fst

/-- The number of the first member with a name. -/
def valueOf? (type : EnumType) (name : String) : Option Int64 := type.members.lookup name

end EnumType

/-- The kind of a scalar value or of the elements of a collection. -/
inductive ScalarKind where
  | bool
  | int32
  | int64
  | double
  | decimal
  | string
  | guid
  | objectId
  | bytes
  | dateTime
  | date
  | time
  | enum (type : EnumType)
deriving DecidableEq

namespace ScalarKind

/-- Values of this kind are stored inline; texts and byte strings are not and may always be null. -/
def isValueType : ScalarKind → Bool
  | string => false
  | bytes => false
  | _ => true

def name : ScalarKind → String
  | bool => "bool"
  | int32 => "int32"
  | int64 => "int64"
  | double => "double"
  | decimal => "decimal"
  | string => "string"
  | guid => "guid"
  | objectId => "object id"
  | bytes => "bytes"
  | dateTime => "date-time"
  | date => "date"
  | time => "time"
  | enum type => type.name

/-- The kinds other than enumerations. -/
def plain : List ScalarKind :=
  [bool, int32, int64, double, decimal, string, guid, objectId, bytes, dateTime, date, time]

end ScalarKind

/-- A property holds one scalar or a collection of them. -/
inductive PropertyKind where
  | scalar (kind : ScalarKind)
  | collection (container : Container) (element : ScalarKind) (nullableElements : Bool)
deriving DecidableEq

namespace PropertyKind

/-- The kind of the value or of the elements. -/
def scalarKind : PropertyKind → ScalarKind
  | scalar kind => kind
  | collection _ element _ => element

def isCollection : PropertyKind → Bool
  | scalar _ => false
  | collection _ _ _ => true

end PropertyKind

/-! ## Stored forms -/

/-- The stored form chosen for a property. -/
inductive Representation where
  /-- The natural form of the kind. -/
  | natural
  | string
  | int32
  | int64
  | double
  | decimal128
  | objectId
  | binary
deriving DecidableEq

namespace Representation

def name : Representation → String
  | natural => "Default"
  | string => "String"
  | int32 => "Int32"
  | int64 => "Int64"
  | double => "Double"
  | decimal128 => "Decimal128"
  | objectId => "ObjectId"
  | binary => "Binary"

/-- All stored forms in order. -/
def all : List Representation :=
  [natural, string, int32, int64, double, decimal128, objectId, binary]

/-- The form can hold values of the kind. -/
def supports : Representation → ScalarKind → Bool
  | natural, _ => true
  | string, .bytes => false
  | string, _ => true
  | int32, .bool | int32, .int32 | int32, .int64 | int32, .double | int32, .decimal => true
  | int32, .enum _ => true
  | int64, .bool | int64, .int32 | int64, .int64 | int64, .double | int64, .decimal => true
  | int64, .enum _ | int64, .dateTime | int64, .time => true
  | double, .int32 | double, .int64 | double, .double | double, .decimal => true
  | decimal128, .int32 | decimal128, .int64 | decimal128, .double | decimal128, .decimal => true
  | objectId, .objectId | objectId, .string => true
  | binary, .guid | binary, .bytes => true
  | _, _ => false

end Representation

/-! ## Generated keys -/

/-- When a property receives a generated value. -/
inductive ValueGeneration where
  | never
  | onAdd
deriving DecidableEq

/-- How a missing key is generated. -/
inductive GeneratorKind where
  | objectId
  /-- An object identifier as a text of its digits. -/
  | objectIdString
  | guid
  /-- Rising numbers within one owned collection. -/
  | ordinal
deriving DecidableEq

def GeneratorKind.name : GeneratorKind → String
  | objectId => "ObjectId"
  | objectIdString => "ObjectIdString"
  | guid => "Guid"
  | ordinal => "Ordinal"

def ValueGeneration.name : ValueGeneration → String
  | never => "Never"
  | onAdd => "OnAdd"

/-- The generator of a key, if its kind has one. -/
def GeneratorKind.resolve? (kind : ScalarKind) (representation : Representation) (owned : Bool) :
    Option GeneratorKind :=
  match kind with
  | .objectId => some .objectId
  | .string => if representation = .objectId then some .objectIdString else none
  | .guid => some .guid
  | .int32 => if owned then some .ordinal else none
  | .int64 => if owned then some .ordinal else none
  | _ => none

/-! ## Names -/

/-- How elements without an explicit name are named after their members. -/
inductive ElementNaming where
  | asDeclared
  | camelCase
deriving DecidableEq

def ElementNaming.apply : ElementNaming → String → String
  | asDeclared, name => name
  | camelCase, name => Text.uncapitalize name

/-! ## Properties -/

/-- One mapped scalar or collection of scalars. -/
structure Property where
  name : String
  element : String
  kind : PropertyKind
  nullable : Bool
  representation : Representation
  dateTimeKind : DateTimeKind
  /-- The zone of local date-times, the same for all properties on one machine. -/
  zone : Zone
  /-- Numbers out of range are moved to its end. -/
  allowOverflow : Bool
  /-- Digits that the stored form cannot hold are dropped. -/
  allowTruncation : Bool
  generation : ValueGeneration
  concurrencyToken : Bool
  generator : Option GeneratorKind

namespace Property

/-- A property on its own, of a kind and with every choice at its default. -/
def plain (name : String) (kind : PropertyKind) : Property where
  name := name
  element := name
  kind := kind
  nullable := false
  representation := .natural
  dateTimeKind := .utc
  zone := .eastern
  allowOverflow := false
  allowTruncation := false
  generation := .never
  concurrencyToken := false
  generator := none

def scalarKind (p : Property) : ScalarKind := p.kind.scalarKind

def isCollection (p : Property) : Bool := p.kind.isCollection

end Property

end DocMapping
