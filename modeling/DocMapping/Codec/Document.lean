import DocMapping.Bson.Path
import DocMapping.Codec.Property
import DocMapping.EntityType

/-!
# Stored Forms of Entities

An entity is stored as one document: the key first, then the discriminator, the other properties and
the owned entities, each in the order of the type.  Reading asks for every mapped element, in any
order, and passes over the others.  Owned entities are stored in place, without a key of their own.
-/

namespace DocMapping

namespace EntityType

/-! ## Keys -/

/-- The elements of a composite key. -/
def keyElements (e : Entity) : List Property → Outcome Document
  | [] => .ok []
  | p :: rest => do
    let value ← p.encode (e.value p.name)
    let others ← keyElements e rest
    return (p.element, value) :: others

/-- The stored key of an entity. -/
def keyValue (t : EntityType) (e : Entity) : Outcome Bson :=
  if t.hasCompositeKey then (keyElements e t.keys).map fun elements ↦
    .document (Document.ofList elements)
  else
    match t.keys with
    | p :: _ => p.encode (e.value p.name)
    | [] => .error (.configuration (.noKey t.name))

/-- The stored values of the concurrency tokens at their paths. -/
def tokenElements (t : EntityType) (e : Entity) : Outcome Document :=
  t.concurrencyTokens.mapM fun p ↦
    (p.encode (e.value p.name)).map fun value ↦ (Text.dotted (t.elementPath p), value)

/-- The elements that identify the document of an entity, on request with its concurrency tokens. -/
def keyFilter (t : EntityType) (withTokens : Bool) (e : Entity) : Outcome Document := do
  let key ← t.keyValue e
  let tokens ← if withTokens then t.tokenElements e else .ok []
  return Document.ofList ((idElement, key) :: tokens)

/-! ## Writing -/

/-- The elements in front of the properties: the key of a root type and the discriminator. -/
def leadingElements (t : EntityType) (e : Entity) : Outcome Document := do
  let key ← if t.isOwned then .ok [] else (t.keyValue e).map fun key ↦ [(idElement, key)]
  return key ++ t.discriminator.toList.map fun d ↦ (d.element, .string d.value)

/-- The properties with an element of their own. -/
def storedProperties (t : EntityType) : List Property :=
  t.properties.filter fun p ↦ t.isOwned || !t.isKey p.name

def propertyElements (t : EntityType) (e : Entity) : Outcome Document :=
  t.storedProperties.mapM fun p ↦ (p.encode (e.value p.name)).map fun value ↦ (p.element, value)

mutual

/-- The document of an entity. -/
def encode (t : EntityType) (e : Entity) : Outcome Document :=
  match t with
  | t@⟨_, _, _, _, navigations, _⟩ => do
    let leading ← t.leadingElements e
    let properties ← t.propertyElements e
    let owned ← encodeNavigations navigations e
    return Document.ofList (leading ++ properties ++ owned)

/-- The elements of the owned entities of an entity. -/
def encodeNavigations : List (Navigation EntityType) → Entity → Outcome Document
  | [], _ => .ok []
  | n :: rest, e => do
    let value ← encodeNavigation n (e.value n.name)
    let others ← encodeNavigations rest e
    return (n.element, value) :: others

/-- The stored form of what a navigation holds. -/
def encodeNavigation (n : Navigation EntityType) (value : Value) : Outcome Bson :=
  match n with
  | ⟨name, _, target, container, _⟩ =>
    match value, container with
    | .null, _ => .ok .null
    | .entity type members, none => (encode target ⟨type, members⟩).map Bson.document
    | .collection _ items, some _ =>
      (items.mapM fun (item : Value) ↦
        match item with
        | .entity type members => (encode target ⟨type, members⟩).map Bson.document
        | other => .error (.conversion name (.notAnOwnedEntity target.name other.typeName))).map
        Bson.array
    | other, _ => .error (.conversion name (.notAnOwnedValue other.typeName target.name))

end

/-! ## Reading -/

/-- The properties of an entity from its document, added to those read before. -/
def decodeProperties (t : EntityType) (document : Document) : List Property → Entity →
    Outcome Entity
  | [], e => .ok e
  | p :: rest, e => do
    let path := t.elementPath p
    let value ←
      match document.lookup path with
      | some stored => p.decode stored
      | none =>
        if p.nullable then .ok .null else .error (.missingElement t.name (Text.dotted path))
    decodeProperties t document rest (e.set p.name value)

mutual

/-- The entity of a document. -/
def decode (t : EntityType) (document : Document) : Outcome Entity :=
  match t with
  | t@⟨name, _, properties, _, navigations, _⟩ => do
    let e ← t.decodeProperties document properties (Entity.empty name)
    decodeNavigations name document navigations e

/-- The owned entities of an entity from its document, added to what was read before. -/
def decodeNavigations (entity : String) (document : Document) :
    List (Navigation EntityType) → Entity → Outcome Entity
  | [], e => .ok e
  | n :: rest, e => do
    let value ←
      match document.get? n.element with
      | some stored => decodeNavigation n stored
      | none => if n.nullable then .ok .null else .error (.missingElement entity n.element)
    decodeNavigations entity document rest (e.set n.name value)

/-- What a navigation holds, from its stored form. -/
def decodeNavigation (n : Navigation EntityType) (stored : Bson) : Outcome Value :=
  match n with
  | ⟨name, _, target, container, _⟩ =>
    match stored, container with
    | .null, _ => .ok .null
    | .document owned, none => (decode target owned).map Entity.toValue
    | .array items, some container =>
      (items.mapM fun (item : Bson) ↦
        match item with
        | .document owned => (decode target owned).map Entity.toValue
        | other => .error (.conversion name (.notASubdocument other.typeName))).map
        (Value.collection container)
    | other, _ => .error (.conversion name (.notAnOwnedValue other.typeName target.name))

end

end EntityType

end DocMapping
