import DocMapping.Codec.Document

/-!
# Differences of Entities

What has to be assigned to the document of one entity so that it becomes that of another: the changed
properties at their paths, going into owned entities that are present on both sides.  Other owned
values are replaced whole.  The key of a root entity is never part of a difference.
-/

namespace DocMapping.EntityType

/-- The changed properties of an entity, at paths that begin with `start`. -/
def diffProperties (t : EntityType) (start : String) (before after : Entity) : Outcome Document :=
  (t.storedProperties.filter fun p ↦
    !p.comparer.equals (before.value p.name) (after.value p.name)).mapM fun p ↦
      (p.encode (after.value p.name)).map fun value ↦ (start ++ p.element, value)

mutual

/-- The assignments that turn the document of `before` into that of `after`. -/
def diffFrom (t : EntityType) (start : String) (before after : Entity) : Outcome Document :=
  match t with
  | t@⟨_, _, _, _, navigations, _⟩ => do
    let properties ← t.diffProperties start before after
    let owned ← diffNavigations start before after navigations
    return properties ++ owned

def diffNavigations (start : String) (before after : Entity) :
    List (Navigation EntityType) → Outcome Document
  | [] => .ok []
  | n :: rest => do
    let first ← diffNavigation start (before.value n.name) (after.value n.name) n
    let others ← diffNavigations start before after rest
    return first ++ others

/-- The assignments for one navigation. -/
def diffNavigation (start : String) (before after : Value) (n : Navigation EntityType) :
    Outcome Document :=
  match n with
  | n@⟨_, element, target, container, _⟩ =>
    let replaced : Outcome Document :=
      if before.structuralEq after then .ok []
      else (encodeNavigation n after).map fun value ↦ [(start ++ element, value)]
    match before, after, container with
    | .entity s old, .entity t new, none =>
      diffFrom target (start ++ element ++ ".") ⟨s, old⟩ ⟨t, new⟩
    | _, _, _ => replaced

end

/-- The assignments that turn the document of one entity into that of another. -/
def diff (t : EntityType) (before after : Entity) : Outcome Document :=
  (t.diffFrom "" before after).map Document.ofList

/-- The keys of two entities of a root type differ. -/
def keyChanged (t : EntityType) (before after : Entity) : Bool :=
  !t.isOwned && t.keys.any fun p ↦ !(before.value p.name).structuralEq (after.value p.name)

/-- Two entities differ, or one of them cannot be stored. -/
def differs (t : EntityType) (before after : Entity) : Bool :=
  match t.diff before after with
  | .ok changes => !changes.isEmpty || t.keyChanged before after
  | .error _ => true

end DocMapping.EntityType
