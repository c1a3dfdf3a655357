import DocMapping.Change.Difference

/-!
# Tracked Entities

A root entity in the hands of the application, beside what is stored of it.  Its state says what a
save has to do; only entities that are already stored change their state when changes are detected.
-/

namespace DocMapping

/-- What a save has to do with an entity. -/
inductive EntityState where
  /-- Nothing any more: the entity is not tracked. -/
  | detached
  | unchanged
  | added
  | modified
  | deleted
deriving DecidableEq

def EntityState.name : EntityState → String
  | detached => "Detached"
  | unchanged => "Unchanged"
  | added => "Added"
  | modified => "Modified"
  | deleted => "Deleted"

/-- A tracked entity: as it is now, and as it is stored. -/
structure ChangeEntry where
  type : EntityType
  state : EntityState
  current : Entity
  baseline : Entity

namespace ChangeEntry

/-- An entity that is not stored yet. -/
def added (t : EntityType) (current : Entity) : ChangeEntry :=
  ⟨t, .added, current, Entity.empty t.name⟩

def modified (t : EntityType) (baseline current : Entity) : ChangeEntry :=
  ⟨t, .modified, current, baseline⟩

def deleted (t : EntityType) (baseline : Entity) : ChangeEntry := ⟨t, .deleted, baseline, baseline⟩

/-- An entity as it is stored. -/
def unchanged (t : EntityType) (current : Entity) : ChangeEntry :=
  ⟨t, .unchanged, current, t.snapshot current⟩

/-- Marks an entity for removal; one that was never stored is only forgotten. -/
def delete (e : ChangeEntry) : ChangeEntry :=
  { e with state := if e.state = .added then .detached else .deleted }

/-- Compares a stored entity with what is stored of it. -/
def detect (e : ChangeEntry) : ChangeEntry :=
  if e.state = .unchanged ∨ e.state = .modified then
    { e with state := if e.type.differs e.baseline e.current then .modified else .unchanged }
  else e

/-- The entity after its changes were stored. -/
def accept (e : ChangeEntry) : ChangeEntry :=
  match e.state with
  | .added | .modified | .unchanged =>
    { e with baseline := e.type.snapshot e.current, state := .unchanged }
  | .deleted => { e with state := .detached }
  | .detached => e

end ChangeEntry

end DocMapping
