import DocMapping.Error
import DocMapping.Model.Declaration
import DocMapping.Text.Search

/-!
# Models

The entity types that declarations describe.  Building a model follows every navigation down to types
without navigations, so it ends only because no owned type may contain itself.  A type that several
navigations lead to is built once, for the first of them, and shared by the others.  The first fault
in the order of the declarations is reported; of one type the keys are checked first, then the
properties, the navigations, and last the names of its elements.
-/

namespace DocMapping

/-- The entity types of one application, in the order of their declaration. -/
structure Model where
  entities : List EntityType

namespace Model

def entity? (m : Model) (name : String) : Option EntityType :=
  m.entities.find? (·.name == name)

/-- The entity type of a name; a missing one is an error. -/
def require (m : Model) (name : String) : Outcome EntityType :=
  match m.entity? name with
  | some t => .ok t
  | none => .error (.configuration (.unknownEntity name))

/-- The entity types in the order of their names. -/
def byName (m : Model) : List EntityType :=
  m.entities.mergeSort fun a b ↦ decide (a.name ≤ b.name)

end Model

/-! ## Keys and properties -/

namespace EntityDeclaration

/-- The position of the property that a key names. -/
def keyPosition (d : EntityDeclaration) (key : String) : Except ConfigurationFault Nat :=
  match d.properties.zipIdx.find? (·.1.name == key) with
  | none => .error (.undeclaredKey key d.name)
  | some (p, position) =>
    if p.nullable then .error (.nullableKey key d.name)
    else if p.kind.isCollection then .error (.collectionKey key d.name)
    else .ok position

/-- The name of the element of a property.  A key that is a single property is stored as `_id`. -/
def propertyElement (d : EntityDeclaration) (naming : ElementNaming) (isKey : Bool)
    (p : PropertyDeclaration) : String :=
  p.element.getD
    (if isKey && !d.owned && !d.isComposite then idElement else naming.apply p.name)

/-- The generator of a property, which only keys may have. -/
def propertyGenerator (d : EntityDeclaration) (isKey : Bool) (p : PropertyDeclaration) :
    Except ConfigurationFault (Option GeneratorKind) :=
  match p.generation with
  | .never => .ok none
  | .onAdd =>
    if isKey then
      match GeneratorKind.resolve? p.kind.scalarKind p.representation d.owned with
      | some generator => .ok (some generator)
      | none => .error (.noGenerator p.name p.kind.scalarKind.name d.name)
    else .error (.generatedOutsideKey p.name d.name)

/-- The property that a declaration describes. -/
def buildProperty (d : EntityDeclaration) (naming : ElementNaming) (isKey : Bool)
    (p : PropertyDeclaration) : Except ConfigurationFault Property := do
  let kind := p.kind.scalarKind
  unless p.representation.supports kind do
    throw (.unsupportedRepresentation p.representation.name p.name kind.name d.name)
  let generator ← d.propertyGenerator isKey p
  return {
    name := p.name
    element := d.propertyElement naming isKey p
    kind := p.kind
    nullable := p.nullable
    representation := p.representation
    dateTimeKind := p.dateTimeKind
    zone := p.zone
    allowOverflow := p.allowOverflow
    allowTruncation := p.allowTruncation
    generation := p.generation
    concurrencyToken := p.concurrencyToken
    generator := generator }

/-- The properties that a declaration describes, and those of them that form the key, in order. -/
def buildProperties (d : EntityDeclaration) (naming : ElementNaming) :
    Except ConfigurationFault (List Property × List Property) := do
  if !d.owned && d.keys.isEmpty then throw (.noKey d.name)
  let positions ← d.keys.mapM d.keyPosition
  let properties ← d.properties.zipIdx.mapM fun (p, position) ↦
    d.buildProperty naming (positions.contains position) p
  return (properties, positions.filterMap (properties[·]?))

end EntityDeclaration

/-! ## Names of elements -/

/-- A document can have an element of this name that paths reach. -/
def isElementName (element : String) : Bool :=
  !(element == "" || Text.contains element "." || Text.startsWith element "$")

namespace EntityType

/-- The elements of the documents of a type, those inside its key and its owned entities apart. -/
def elements (t : EntityType) : List String :=
  (t.properties.filter fun p ↦ !(t.hasCompositeKey && t.isKey p.name)).map (·.element) ++
    t.navigations.map (·.element) ++
    t.discriminator.toList.map (·.element) ++
    (if t.hasCompositeKey then [idElement] else [])

/-- Every name is one of an element and none occurs twice. -/
def checkElements (entity : String) (seen : List String) :
    List String → Except ConfigurationFault Unit
  | [] => .ok ()
  | element :: rest =>
    if !isElementName element then .error (.invalidElement element entity)
    else if seen.contains element then .error (.repeatedElement element entity)
    else checkElements entity (element :: seen) rest

end EntityType

/-! ## Entity types -/

namespace ModelDeclaration

/-- The declaration that a navigation leads to, which must be of an owned type. -/
def target (m : ModelDeclaration) (owner : String) (n : NavigationDeclaration) :
    Except ConfigurationFault EntityDeclaration :=
  match m.entity? n.target with
  | none => .error (.undeclaredTarget n.name owner n.target)
  | some d => if d.owned then .ok d else .error (.targetNotOwned n.name owner n.target)

/-- Types are built one after the other; those that are built are kept, the last one first. -/
abbrev Construction := StateT (List EntityType) (Except ConfigurationFault)

/-- The navigation of a declaration, with a target that `construct` provides. -/
def buildNavigation (m : ModelDeclaration)
    (construct : EntityDeclaration → Construction EntityType) (owner : String)
    (n : NavigationDeclaration) : Construction (Navigation EntityType) := do
  let target ← construct (← m.target owner n)
  return {
    name := n.name
    element := n.element.getD (m.naming.apply n.name)
    target := target
    container := n.container
    nullable := n.nullable }

/-- The entity type of a declaration that is reached through `owners`, at most `depth` deep.  Owners
differ from each other, so that a depth of the number of declarations is never exhausted. -/
def buildEntity (m : ModelDeclaration) :
    Nat → List String → EntityDeclaration → Construction EntityType
  | 0, _, d => throw (.selfContained d.name)
  | depth + 1, owners, d => do
    if let some t := (← get).find? (·.name == d.name) then return t
    if owners.contains d.name then throw (.selfContained d.name)
    let (properties, keys) ← d.buildProperties m.naming
    let navigations ← d.navigations.mapM
      (m.buildNavigation (buildEntity m depth (d.name :: owners)) d.name)
    let t : EntityType := {
      name := d.name
      collection := d.collectionName?
      properties := properties
      keys := keys
      navigations := navigations
      discriminator := d.discriminator }
    EntityType.checkElements t.name [] t.elements
    modify (t :: ·)
    return t

/-- No two declarations have one name. -/
def checkNames (seen : List String) : List EntityDeclaration → Except ConfigurationFault Unit
  | [] => .ok ()
  | d :: rest =>
    if seen.contains d.name then .error (.repeatedEntity d.name)
    else checkNames (d.name :: seen) rest

end ModelDeclaration

/-! ## Shared collections -/

namespace Model

/-- The types that share a collection. -/
def sharing (m : Model) (collection : String) : List EntityType :=
  m.entities.filter (·.collection == some collection)

/-- Every type has a discriminator of its own value. -/
def checkDiscriminators (collection : String) (seen : List String) :
    List EntityType → Except ConfigurationFault Unit
  | [] => .ok ()
  | t :: rest =>
    match t.discriminator with
    | none => .error (.noDiscriminator t.name collection)
    | some discriminator =>
      if seen.contains discriminator.value then
        .error (.sharedDiscriminator discriminator.value collection)
      else checkDiscriminators collection (discriminator.value :: seen) rest

/-- Types in one collection can be told apart. -/
def checkShared (m : Model) : Except ConfigurationFault Unit :=
  m.entities.forM fun t ↦
    match t.collection with
    | none => .ok ()
    | some collection =>
      let types := m.sharing collection
      if types.length < 2 then .ok () else checkDiscriminators collection [] types

end Model

/-- The model of declarations that contradict neither each other nor themselves. -/
def ModelDeclaration.build (m : ModelDeclaration) : Except ConfigurationFault Model := do
  checkNames [] m.entities
  let entities ← (m.entities.mapM (m.buildEntity m.entities.length [])).run' []
  let model : Model := ⟨entities⟩
  model.checkShared
  return model

end DocMapping
