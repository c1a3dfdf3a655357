import DocMapping.EntityType

/-!
# Declarations

What the author of a model writes down for each entity type, before names of elements are derived and
navigations are followed.  Declaring checks nothing; a model is built from declarations all at once.
-/

namespace DocMapping

/-- A declared property. -/
structure PropertyDeclaration where
  name : String
  kind : PropertyKind
  /-- The name of the element, if it is not derived from that of the property. -/
  element : Option String
  nullable : Bool
  representation : Representation
  dateTimeKind : DateTimeKind
  allowOverflow : Bool
  allowTruncation : Bool
  generation : ValueGeneration
  concurrencyToken : Bool
  /-- The zone of local date-times, which is not the author's choice but that of the machine. -/
  zone : Zone := .eastern

/-- A declared navigation to the owned type named `target`. -/
structure NavigationDeclaration where
  name : String
  target : String
  container : Option Container
  element : Option String
  nullable : Bool

/-- A declared entity type. -/
structure EntityDeclaration where
  name : String
  owned : Bool
  /-- The collection, if it is not named after the type. -/
  collection : Option String
  /-- The names of the properties that form the key. -/
  keys : List String
  properties : List PropertyDeclaration
  navigations : List NavigationDeclaration
  discriminator : Option Discriminator

/-- All declarations of one model. -/
structure ModelDeclaration where
  naming : ElementNaming
  entities : List EntityDeclaration

namespace EntityDeclaration

/-- Documents of the type hold their key as a document of several elements. -/
def isComposite (d : EntityDeclaration) : Bool := !d.owned && decide (1 < d.keys.length)

/-- The collection that holds entities of the type. -/
def collectionName? (d : EntityDeclaration) : Option String :=
  if d.owned then none else some (d.collection.getD d.name)

end EntityDeclaration

namespace ModelDeclaration

def entity? (m : ModelDeclaration) (name : String) : Option EntityDeclaration :=
  m.entities.find? (·.name == name)

end ModelDeclaration

end DocMapping
