import DocMapping.Proofs.Change.Ordinals

/-!
# Places of Owned Collections

What is inside of a value is found by steps to members of entities and to items of collections.  The
navigations of a type say at which places its entities have owned collections.
-/

namespace DocMapping

theorem Entity.toValue_inj {e f : Entity} (h : e.toValue = f.toValue) : e = f :=
  Option.some_inj.1 (congrArg Value.entity? h)

theorem Entity.value_of_get? {e : Entity} {member : String} {value : Value}
    (h : e.get? member = some value) : e.value member = value := by
  rw [Entity.value, h]
  rfl

namespace Value

/-- A step from a value to one directly inside of it. -/
inductive Step where
  | member (name : String)
  | position (index : Nat)

def step? (value : Value) : Step → Option Value
  | .member name => value.entity?.bind fun e ↦ e.get? name
  | .position index => value.elements?.bind fun items ↦ items[index]?

/-- The value that some steps lead to. -/
def at? (value : Value) : List Step → Option Value
  | [] => some value
  | step :: rest => (value.step? step).bind fun inner ↦ inner.at? rest

variable {value : Value} {container : Container} {items : List Value} {e : Entity}
  {steps : List Step} {name : String}

theorem at?_member {inner : Value} (h : e.get? name = some inner) :
    e.toValue.at? (.member name :: steps) = inner.at? steps := by
  change (e.get? name).bind _ = _
  rw [h]
  rfl

/-- No collection is inside of a scalar. -/
theorem at?_of_isPlain (h : value.IsPlain) :
    value.at? steps ≠ some (collection container items) := by
  intro hat
  obtain ⟨hentity, helements⟩ := h
  cases steps with
  | nil =>
    cases hat
    cases helements
  | cons step rest =>
    have hnone : value.step? step = none := by
      cases step with
      | member name =>
        unfold step?
        rw [hentity]
        rfl
      | position index =>
        unfold step?
        rw [helements]
        rfl
    rw [at?, hnone] at hat
    cases hat

/-- A collection inside of an entity is in one of its members. -/
theorem at?_toValue (h : e.toValue.at? steps = some (collection container items)) :
    ∃ name rest inner, steps = .member name :: rest ∧ e.get? name = some inner ∧
      inner.at? rest = some (collection container items) := by
  cases steps with
  | nil => cases h
  | cons step rest =>
    obtain ⟨inner, hstep, hinner⟩ := Option.bind_eq_some_iff.1 h
    cases step with
    | member name => exact ⟨name, rest, inner, rfl, hstep, hinner⟩
    | position => cases hstep

/-- Setting a member that has no value leaves all collections in their places. -/
theorem at?_set_missing (new : Value) (hmissing : (e.value name).isDefault = true)
    (h : e.toValue.at? steps = some (collection container items)) :
    (e.set name new).toValue.at? steps = some (collection container items) := by
  obtain ⟨member, rest, inner, rfl, hmember, hinner⟩ := at?_toValue h
  have hne : member ≠ name := by
    rintro rfl
    rw [Entity.value, hmember] at hmissing
    exact at?_of_isPlain (isPlain_of_isDefault hmissing) hinner
  have hset : (e.set name new).get? member = some inner := by
    rw [Entity.get?_set, if_neg hne, hmember]
  exact (at?_member hset).trans hinner

end Value

namespace EntityType

open Value (Step)

/-- Entities of the type have, at a place, the collection that a navigation holds. -/
inductive Reaches : EntityType → List Step → Navigation EntityType → Prop
  | navigation {t : EntityType} {n : Navigation EntityType} (hn : n ∈ t.navigations) :
      Reaches t [.member n.name] n
  | entity {t : EntityType} {n m : Navigation EntityType} {place : List Step}
      (hn : n ∈ t.navigations) (h : Reaches n.target place m) :
      Reaches t (.member n.name :: place) m
  | item {t : EntityType} {n m : Navigation EntityType} {place : List Step}
      (hn : n ∈ t.navigations) (position : Nat) (h : Reaches n.target place m) :
      Reaches t (.member n.name :: .position position :: place) m

namespace Reaches

variable {t : EntityType} {n : Navigation EntityType} {place : List Step}

/-- Owned collections are in members of an entity. -/
theorem exists_member (h : t.Reaches place n) : ∃ name rest, place = .member name :: rest := by
  cases h <;> exact ⟨_, _, rfl⟩

/-- What has an owned collection inside is an entity. -/
theorem exists_entity (h : t.Reaches place n) {value collection : Value}
    (hat : value.at? place = some collection) : ∃ o : Entity, value = o.toValue := by
  obtain ⟨name, rest, rfl⟩ := h.exists_member
  cases value with
  | entity type members => exact ⟨⟨type, members⟩, rfl⟩
  | _ => cases hat

/-- What holds of all items that an entity owns holds of those at the place. -/
theorem allItems (h : t.Reaches place n) {P : EntityType → Entity → Prop} {e : Entity}
    (he : t.AllItems P e) {container : Container} {items : List Value}
    (hat : e.toValue.at? place = some (.collection container items)) {o : Entity}
    (ho : o.toValue ∈ items) : P n.target o := by
  induction h generalizing e with
  | navigation hn =>
    obtain ⟨_, _, inner, heq, hinner, hat⟩ := Value.at?_toValue hat
    cases heq
    cases hat
    have hitems := Entity.value_of_get? hinner ▸ he _ hn
    exact (Navigation.allItems_collection.1 hitems o ho).1
  | entity hn h ih =>
    obtain ⟨_, _, inner, heq, hinner, hat⟩ := Value.at?_toValue hat
    cases heq
    obtain ⟨owned, rfl⟩ := h.exists_entity hat
    exact ih (Navigation.allItems_toValue.1 (Entity.value_of_get? hinner ▸ he _ hn)) hat
  | item hn position h ih =>
    obtain ⟨_, _, inner, heq, hinner, hat⟩ := Value.at?_toValue hat
    cases heq
    cases inner with
    | collection container others =>
      obtain ⟨item, hitem, hat⟩ := Option.bind_eq_some_iff.1 hat
      obtain ⟨owned, rfl⟩ := h.exists_entity hat
      have hothers := Navigation.allItems_collection.1 (Entity.value_of_get? hinner ▸ he _ hn)
      exact ih (hothers owned (List.mem_of_getElem? hitem)).2 hat
    | _ => cases hat

end Reaches

end EntityType

end DocMapping
