import DocMapping.Codec.Scalar

/-!
# Stored Forms of Properties

A property holds one scalar or a collection of scalars, which is stored as an array in either
container.  A null collection is always accepted; null items are, where the elements may be null.
-/

namespace DocMapping.Property

/-- Null may be stored in place of a scalar. -/
def acceptsNull (p : Property) : Bool := p.nullable || !p.scalarKind.isValueType

/-- One item of a collection in its stored form. -/
def encodeItem (p : Property) (nullableElements : Bool) (item : Value) :
    Except ConversionFault Bson :=
  match item with
  | .null =>
    if nullableElements || !p.scalarKind.isValueType then .ok .null else .error .nullElement
  | item => p.encodeScalar item

/-- The stored form of the value of a property. -/
def encodeValue (p : Property) (value : Value) : Except ConversionFault Bson :=
  match p.kind with
  | .scalar _ => p.encodeScalar value
  | .collection _ _ nullableElements =>
    match value with
    | .null => .ok .null
    | .collection _ items => (items.mapM (p.encodeItem nullableElements)).map Bson.array
    | other => .error (.mismatch p.scalarKind.name other.typeName)

/-- One item of a stored collection in its host form. -/
def decodeItem (p : Property) (nullableElements : Bool) (item : Bson) :
    Except ConversionFault Value :=
  match item with
  | .null =>
    if nullableElements || !p.scalarKind.isValueType then .ok .null
    else .error .storedNullElement
  | item => p.decodeScalar item

/-- The host form of the stored value of a property. -/
def decodeValue (p : Property) (stored : Bson) : Except ConversionFault Value :=
  match p.kind with
  | .scalar _ =>
    match stored with
    | .null => if p.acceptsNull then .ok .null else .error .storedNull
    | stored => p.decodeScalar stored
  | .collection container _ nullableElements =>
    match stored with
    | .null => .ok .null
    | .array items =>
      (items.mapM (p.decodeItem nullableElements)).map (Value.collection container)
    | other => .error (.notAnArray other.typeName)

/-- A conversion of this property, whose faults are reported under its name. -/
def reporting {α : Type} (p : Property) (conversion : Except ConversionFault α) : Outcome α :=
  conversion.mapError (.conversion p.name)

/-- The stored form of a value. -/
def encode (p : Property) (value : Value) : Outcome Bson := p.reporting (p.encodeValue value)

/-- The stored form of one element of a collection, or of the scalar itself. -/
def encodeElement (p : Property) (value : Value) : Outcome Bson :=
  p.reporting (p.encodeScalar value)

/-- The host form of a stored value. -/
def decode (p : Property) (stored : Bson) : Outcome Value := p.reporting (p.decodeValue stored)

end DocMapping.Property
