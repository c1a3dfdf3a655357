import DocMapping.Value

/-!
# Edits

Changes of one part of a value in place.  A path names members of entities and positions in
collections; putting a value past the end of a collection appends it, and removing what is not there
changes nothing.
-/

namespace DocMapping

/-- One step of a path into a value. -/
inductive ValueStep where
  | member (name : String)
  | position (index : Nat)

/-- A change of the part at the end of a path. -/
inductive Edit where
  | put (value : Value)
  | remove

/-- What a change has done. -/
inductive EditResult where
  | set (value : Value)
  /-- A collection has grown to this length. -/
  | pushed (length : Nat)
  | removed (value : Option Value)

namespace Edit

def applyToMember (e : Edit) (name : String) (entity : Entity) : Entity × EditResult :=
  match e with
  | put value => (entity.set name value, .set value)
  | remove => (entity.erase name, .removed (entity.get? name))

def applyToItem (e : Edit) (index : Nat) (items : List Value) : List Value × EditResult :=
  match e with
  | put value =>
    if index < items.length then (items.set index value, .set value)
    else (items ++ [value], .pushed (items.length + 1))
  | remove => (items.eraseIdx index, .removed items[index]?)

/-- The value with the part at a path changed, if there is such a path. -/
def applyAt (e : Edit) : List ValueStep → Value → Option (Value × EditResult)
  | [.member name], .entity type members =>
    let (entity, result) := e.applyToMember name ⟨type, members⟩
    some (entity.toValue, result)
  | .member name :: rest, .entity type members =>
    let entity : Entity := ⟨type, members⟩
    (entity.get? name).bind fun part ↦
      (e.applyAt rest part).map fun (changed, result) ↦ ((entity.set name changed).toValue, result)
  | [.position index], .collection container items =>
    let (items, result) := e.applyToItem index items
    some (.collection container items, result)
  | .position index :: rest, .collection container items =>
    items[index]?.bind fun part ↦
      (e.applyAt rest part).map fun (changed, result) ↦
        (.collection container (items.set index changed), result)
  | _, _ => none

end Edit

end DocMapping
