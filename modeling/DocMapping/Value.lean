import DocMapping.Calendar.DateTime
import DocMapping.Identifier
import DocMapping.Number.Binary64
import DocMapping.Number.Decimal

/-!
# Host Values

The closed set of values that a mapped member can hold, independent of how a document stores them.
An entity is its type name and its member values in the order of their names; owned entities are
values of their owner, an absent one is null.
-/

namespace DocMapping

/-- The container that a collection is declared with. -/
inductive Container where
  /-- Of fixed size. -/
  | array
  /-- Growable. -/
  | list
deriving DecidableEq

def Container.name : Container → String
  | array => "array"
  | list => "list"

/-- How a projected record is built. -/
inductive RecordShape where
  | anonymous
  | tuple
  | constructor (name : String)
deriving DecidableEq

/-- A host value. -/
inductive Value where
  | null
  | bool (value : Bool)
  | int32 (value : Int32)
  | int64 (value : Int64)
  | double (value : Binary64)
  | decimal (value : Decimal)
  | string (value : String)
  | guid (value : Guid)
  | objectId (value : ObjectId)
  | bytes (value : List UInt8)
  | dateTime (value : DateTime)
  | date (value : Date)
  | time (value : Time)
  /-- A member of an enumeration by its number. -/
  | enum (value : Int64)
  | collection (container : Container) (items : List Value)
  | entity (type : String) (members : List (String × Value))
  | record (shape : RecordShape) (fields : List (String × Value))

/-- An entity instance: the name of its type and the values of its members. -/
structure Entity where
  type : String
  members : List (String × Value)

namespace Entity

def empty (type : String) : Entity := ⟨type, []⟩

def toValue (e : Entity) : Value := .entity e.type e.members

/-- The value of a member, if it was ever set. -/
def get? (e : Entity) (member : String) : Option Value := e.members.lookup member

/-- The value of a member; one that was never set is null. -/
def value (e : Entity) (member : String) : Value := (e.get? member).getD .null

/-- Puts a member in the order of names, over an earlier value of it. -/
def insertMember (member : String) (value : Value) :
    List (String × Value) → List (String × Value)
  | [] => [(member, value)]
  | (name, old) :: rest =>
    if member = name then (member, value) :: rest
    else if member < name then (member, value) :: (name, old) :: rest
    else (name, old) :: insertMember member value rest

def set (e : Entity) (member : String) (value : Value) : Entity :=
  { e with members := insertMember member value e.members }

/-- The entity of members in any order; of a repeated one the last value stays. -/
def ofList (type : String) (members : List (String × Value)) : Entity :=
  members.foldl (fun e (member, value) ↦ e.set member value) (empty type)

def erase (e : Entity) (member : String) : Entity :=
  { e with members := e.members.filter fun entry ↦ entry.1 != member }

end Entity

namespace Value

def isNull : Value → Bool
  | null => true
  | _ => false

/-- The value is null or the default of its kind, so that a key still needs one. -/
def isDefault : Value → Bool
  | null => true
  | bool value => !value
  | int32 value => value == 0
  | int64 value => value == 0
  | enum value => value == 0
  | double value => value.isZero
  | decimal value => value.isZero
  | string value => value == ""
  | guid value => value.value.val == 0
  | objectId value => value.value.val == 0
  | bytes value => value.isEmpty
  | _ => false

/-- The items of a collection. -/
def elements? : Value → Option (List Value)
  | collection _ items => some items
  | _ => none

def string? : Value → Option String
  | string value => some value
  | _ => none

def bool? : Value → Option Bool
  | bool value => some value
  | _ => none

def int32? : Value → Option Int32
  | int32 value => some value
  | _ => none

/-- Whole numbers of either width and members of enumerations. -/
def integer? : Value → Option Int
  | int32 value => some value.toInt
  | int64 value => some value.toInt
  | enum value => some value.toInt
  | _ => none

/-- Whole numbers and doubles as doubles. -/
def double? : Value → Option Binary64
  | double value => some value
  | int32 value => some (Binary64.ofInt value.toInt)
  | int64 value => some (Binary64.ofInt value.toInt)
  | _ => none

def entity? : Value → Option Entity
  | entity type members => some ⟨type, members⟩
  | _ => none

/-- The fields of a record. -/
def record? : Value → Option (List (String × Value))
  | record _ fields => some fields
  | _ => none

/-- The name of the kind of value in messages. -/
def typeName : Value → String
  | null => "null"
  | bool _ => "bool"
  | int32 _ => "int32"
  | int64 _ => "int64"
  | double _ => "double"
  | decimal _ => "decimal"
  | string _ => "string"
  | guid _ => "guid"
  | objectId _ => "object id"
  | bytes _ => "bytes"
  | dateTime _ => "date-time"
  | date _ => "date"
  | time _ => "time"
  | enum _ => "enum"
  | collection container _ => container.name
  | entity _ _ => "entity"
  | record _ _ => "record"

end Value

end DocMapping
