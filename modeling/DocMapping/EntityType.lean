import DocMapping.Bson
import DocMapping.Comparer

/-!
# Entity Types

How the members of an entity are stored.  A root type has documents of its own in a collection, an
owned type lives inside the documents of its owners.  Navigations lead from an owner to the owned
type itself, so that an entity type is a finite tree and everything below it is found without a model.
-/

namespace DocMapping

/-- A member that holds one owned entity or a collection of them. -/
structure Navigation (τ : Type) where
  name : String
  element : String
  target : τ
  /-- The container of a collection; a single owned entity has none. -/
  container : Option Container
  nullable : Bool

/-- An element that tells the types of one collection apart, and its text for one of them. -/
structure Discriminator where
  element : String
  value : String
deriving DecidableEq

/-- An entity type with everything that is needed to store its entities. -/
structure EntityType where
  name : String
  /-- The collection of a root type; an owned type has none. -/
  collection : Option String
  properties : List Property
  /-- The properties that form the key, in order. -/
  keys : List Property
  navigations : List (Navigation EntityType)
  discriminator : Option Discriminator

namespace EntityType

def isOwned (t : EntityType) : Bool := t.collection.isNone

def property? (t : EntityType) (name : String) : Option Property :=
  t.properties.find? (·.name == name)

def navigation? (t : EntityType) (name : String) : Option (Navigation EntityType) :=
  t.navigations.find? (·.name == name)

def isKey (t : EntityType) (property : String) : Bool := t.keys.any (·.name == property)

/-- The key is a document of several elements.  Owned entities have no stored key. -/
def hasCompositeKey (t : EntityType) : Bool := !t.isOwned && decide (1 < t.keys.length)

/-- The properties that must still have their first value when a document is changed. -/
def concurrencyTokens (t : EntityType) : List Property := t.properties.filter (·.concurrencyToken)

/-- The place of a property in the documents of its type. -/
def elementPath (t : EntityType) (p : Property) : List String :=
  if t.hasCompositeKey && t.isKey p.name then [idElement, p.element] else [p.element]

/-- A copy of the mapped properties that an entity has. -/
def copyProperties (properties : List Property) (e : Entity) : Entity :=
  properties.foldl
    (fun copy p ↦
      match e.get? p.name with
      | some value => copy.set p.name (p.comparer.snapshot value)
      | none => copy)
    (Entity.empty e.type)

mutual

/-- A copy of the mapped members of an entity, those of owned entities included. -/
def snapshot (t : EntityType) (e : Entity) : Entity :=
  match t with
  | ⟨_, _, properties, _, navigations, _⟩ =>
    snapshotNavigations navigations e (copyProperties properties e)

/-- Adds copies of the owned entities of `e` to its copy. -/
def snapshotNavigations : List (Navigation EntityType) → Entity → Entity → Entity
  | [], _, copy => copy
  | n :: rest, e, copy =>
    snapshotNavigations rest e
      (match e.get? n.name with
        | some value => copy.set n.name (snapshotOwned n value)
        | none => copy)

/-- A copy of what a navigation holds. -/
def snapshotOwned (n : Navigation EntityType) (value : Value) : Value :=
  match n with
  | ⟨_, _, target, _, _⟩ =>
    match value with
    | .entity type members => (snapshot target ⟨type, members⟩).toValue
    | .collection container items =>
      .collection container
        (items.map fun item ↦
          match item with
          | .entity type members => (snapshot target ⟨type, members⟩).toValue
          | other => other)
    | other => other

end

end EntityType

end DocMapping
