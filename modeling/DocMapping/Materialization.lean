import DocMapping.Plan

/-!
# Materialization

The value that a plan makes of one document.  A member that is missing because an owned entity on its
way is missing or null reads as null; any other missing element that the member cannot do without is an
error.
-/

namespace DocMapping

namespace Document

/-- Some document on the way to a path is missing or null. -/
def lacksParent (document : Document) (path : List String) : Bool :=
  (List.range' 1 (path.length - 1)).any fun depth ↦
    match document.lookup (path.take depth) with
    | none => true
    | some .null => true
    | some _ => false

end Document

namespace Plan

/-- A missing element of the entity that the query reads. -/
def missing (p : Plan) (path : List String) : StoreError :=
  .missingElement p.selection.entity.name (Text.dotted path)

/-- A stored value at a path that is not an owned entity. -/
def notOwned (t : EntityType) (path : List String) (found : Bson) : StoreError :=
  .conversion (Text.dotted path) (.notAnOwnedSubdocument t.name found.typeName)

/-- The owned entity of an item. -/
def ownedItem (t : EntityType) (path : List String) (item : Bson) : Outcome Value :=
  match item with
  | .document owned => (t.decode owned).map Entity.toValue
  | other => .error (notOwned t path other)

/-- Null in place of an element that may be missing. -/
def nullOr (p : Plan) (document : Document) (path : List String) (permitted : Bool) :
    Outcome Value :=
  if permitted || document.lacksParent path then .ok .null else .error (p.missing path)

/-- The value that a chain of members leads to. -/
def readTarget (p : Plan) (document : Document) (target : Target) : Outcome Value :=
  match target with
  | .property path property =>
    match document.lookup path with
    | some stored => property.decode stored
    | none => p.nullOr document path property.nullable
  | .entity [] t _ => (t.decode document).map Entity.toValue
  | .entity path t nullable =>
    match document.lookup path with
    | some (.document owned) => (t.decode owned).map Entity.toValue
    | some .null => p.nullOr document path nullable
    | none => p.nullOr document path nullable
    | some other => .error (notOwned t path other)
  | .ownedCollection path t container =>
    match document.lookup path with
    | some (.array items) => (items.mapM (ownedItem t path)).map (Value.collection container)
    | some .null => .ok .null
    | none => p.nullOr document path false
    | some other => .error (notOwned t path other)

/-- The value bound at a place. -/
def readPlace (p : Plan) (parameters : Parameters) (document : Document) (place : Place) :
    Outcome Value :=
  match p.selection.projection.lookup place with
  | some (.stored target) => p.readTarget document target
  | some (.constant value) => .ok value
  | some (.parameter name) => parameters.require name
  | none => .error (.operation (.unmappedProjection place.text))

mutual

/-- The value that a shaper makes of a document. -/
def shape (p : Plan) (parameters : Parameters) (document : Document) : Shaper → Outcome Value
  | .place place => p.readPlace parameters document place
  | .record shape fields => (shapeFields p parameters document fields).map (Value.record shape)
  | .array items => (shapeItems p parameters document items).map (Value.collection .array)
  | .function f => do
    let e ← p.selection.entity.decode document
    f.evaluate parameters e.toValue

def shapeFields (p : Plan) (parameters : Parameters) (document : Document) :
    List (String × Shaper) → Outcome (List (String × Value))
  | [] => .ok []
  | (name, shaper) :: rest => do
    let value ← shape p parameters document shaper
    return (name, value) :: (← shapeFields p parameters document rest)

def shapeItems (p : Plan) (parameters : Parameters) (document : Document) :
    List Shaper → Outcome (List Value)
  | [] => .ok []
  | shaper :: rest => do
    let value ← shape p parameters document shaper
    return value :: (← shapeItems p parameters document rest)

end

/-- The value of a document. -/
def materialize (p : Plan) (parameters : Parameters) (document : Document) : Outcome Value :=
  p.shape parameters document p.shaper

end Plan

end DocMapping
