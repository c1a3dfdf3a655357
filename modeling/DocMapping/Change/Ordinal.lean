import DocMapping.Change.Progress
import DocMapping.EntityType

/-!
# Ordinals

The numbers that elements of owned collections get as their keys.  They rise within a scope, which is
one collection of one entity, and start above every number that the collection holds already, so that
a number is never given twice.
-/

namespace DocMapping

/-- The last number given out in each scope. -/
abbrev OrdinalCounters := List (String × Int)

namespace OrdinalCounters

def last (c : OrdinalCounters) (scope : String) : Int := (c.lookup scope).getD 0

def set (scope : String) (number : Int) : OrdinalCounters → OrdinalCounters
  | [] => [(scope, number)]
  | (other, old) :: rest =>
    if scope = other then (scope, number) :: rest else (other, old) :: set scope number rest

/-- The next number of a scope, above `floor`.  Numbers have 64 bits; past the greatest, the least
follows. -/
def next (c : OrdinalCounters) (scope : String) (floor : Int) : Int :=
  (max (c.last scope) floor + 1).bmod (2 ^ 64)

/-- The counters once the next number of a scope is given out. -/
def advance (c : OrdinalCounters) (scope : String) (floor : Int) : OrdinalCounters :=
  c.set scope (c.next scope floor)

end OrdinalCounters

namespace Property

/-- A number as the value of the property. -/
def ordinalValue (p : Property) (number : Int) : Outcome Value :=
  if p.scalarKind = .int32 then
    (if -2 ^ 31 ≤ number ∧ number < 2 ^ 31 then .ok (.int32 (Int32.ofInt number))
      else .error (.operation (.ordinalTooLarge (toString number) p.name)))
  else .ok (.int64 (Int64.ofInt number))

/-- The greatest number that the property has among the items, zero if it has none. -/
def ordinalFloor (p : Property) (items : List Value) : Int :=
  ((items.filterMap fun item ↦
    item.entity?.bind fun e ↦ (e.value p.name).integer?).max?).getD 0

/-- Gives the entity a number if it has none. -/
def assignOrdinal (p : Property) (scope : String) (floor : Int) (item : Value)
    (counters : OrdinalCounters) : Progress OrdinalCounters Value :=
  match item with
  | .entity type members =>
    let e : Entity := ⟨type, members⟩
    if (e.value p.name).isDefault then
      let advanced := counters.advance scope floor
      match p.ordinalValue (counters.next scope floor) with
      | .ok value => .done (e.set p.name value).toValue advanced
      | .error fault => ⟨item, advanced, some fault⟩
    else .done item counters
  | other => .done other counters

end Property

namespace EntityType

/-- The keys that are numbered through their owner. -/
def ordinalKeys (t : EntityType) : List Property :=
  t.keys.filter fun p ↦ p.generator == some .ordinal

/-- Numbers the items of one collection. -/
def assignItems (t : EntityType) (scope : String) (items : List Value)
    (counters : OrdinalCounters) : Progress OrdinalCounters (List Value) :=
  Progress.steps
    (fun p items counters ↦
      Progress.items (fun _ ↦ p.assignOrdinal scope (p.ordinalFloor items)) 0 items counters)
    t.ordinalKeys items counters

mutual

/-- Numbers the owned entities of an entity, at any depth. -/
def assignOrdinals (t : EntityType) (scope : String) (e : Entity) (counters : OrdinalCounters) :
    Progress OrdinalCounters Entity :=
  match t with
  | ⟨_, _, _, _, navigations, _⟩ => assignNavigations scope navigations e counters

def assignNavigations (scope : String) :
    List (Navigation EntityType) → Entity → OrdinalCounters → Progress OrdinalCounters Entity
  | [], e, counters => .done e counters
  | n :: rest, e, counters =>
    (match e.get? n.name with
      | some value => (assignNavigation scope n value counters).map (e.set n.name)
      | none => .done e counters).andThen (assignNavigations scope rest)

/-- Numbers what a navigation holds: first the items of a collection, then what they own. -/
def assignNavigation (scope : String) (n : Navigation EntityType) (value : Value)
    (counters : OrdinalCounters) : Progress OrdinalCounters Value :=
  match n with
  | ⟨_, element, target, _, _⟩ =>
    let scope := scope ++ "/" ++ element
    match value with
    | .entity type members =>
      (assignOrdinals target scope ⟨type, members⟩ counters).map Entity.toValue
    | .collection container items =>
      ((target.assignItems scope items counters).andThen
        (Progress.items
          (fun position (item : Value) counters ↦
            match item with
            | .entity type members =>
              (assignOrdinals target (scope ++ "/" ++ toString position) ⟨type, members⟩
                counters).map Entity.toValue
            | other => .done other counters)
          0)).map (Value.collection container)
    | other => .done other counters

end

end EntityType

end DocMapping
