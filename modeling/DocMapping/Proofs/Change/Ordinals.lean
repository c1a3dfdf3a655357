import DocMapping.Proofs.Change.Numbering

/-!
# Rising Numbers

Numbering the owned entities of an entity takes one pass for each numbered key over each collection.
In a pass the items without a number get rising ones, above all numbers that the collection holds
and all that were given out in its scope.  Nothing but such passes happens to an entity.
-/

namespace DocMapping

open Value (Completes)
open EntityType (BelowGreatest)

/-! ## One pass -/

namespace OrdinalCounters

variable {counters : OrdinalCounters}

theorem last_advance (counters : OrdinalCounters) (scope : String) (floor : Int) :
    (counters.advance scope floor).last scope = counters.next scope floor := by
  unfold advance
  rw [last_set, if_pos rfl]

theorem Below.next_eq (h : counters.Below) (scope : String) {floor : Int}
    (hfloor : floor < greatestNumber) :
    counters.next scope floor = max (counters.last scope) floor + 1 := by
  obtain ⟨hlast, hbelow⟩ := h scope
  unfold greatestNumber at hbelow hfloor
  exact Int.bmod_eq_of_le (by omega) (by omega)

end OrdinalCounters

namespace Property

/-- The items without a number get rising ones, the first above `last`; the others stay. -/
inductive Rises (p : Property) : Int → List Value → List Value → Prop
  | nil (last : Int) : Rises p last [] []
  | keep {last : Int} {item : Value} {items others : List Value} (hitem : p.Numbers item)
      (h : Rises p last items others) : Rises p last (item :: items) (item :: others)
  | give {last number : Int} {o : Entity} {value : Value} {items others : List Value}
      (hmissing : (o.value p.name).isDefault = true) (hvalue : value.integer? = some number)
      (hlast : last < number) (h : Rises p number items others) :
      Rises p last (o.toValue :: items) ((o.set p.name value).toValue :: others)

variable {p : Property} {scope : String} {items others : List Value} {counters : OrdinalCounters}

theorem Rises.completes {last : Int} (h : p.Rises last items others) :
    List.Forall₂ Completes items others := by
  induction h with
  | nil => exact .nil
  | keep _ _ ih => exact .cons (.refl _) ih
  | give hmissing hvalue _ _ ih =>
    exact .cons (.fill _ p.name hmissing (Value.isPlain_of_integer? hvalue)) ih

/-- What work on an item does: it gives the item a number, or it finds one. -/
theorem assignOrdinal_cases {floor : Int} {item : Value} (hcounters : counters.Below)
    (hfloor : floor < greatestNumber)
    (hdone : (p.assignOrdinal scope floor item counters).fault = none) :
    (p.Numbers item ∧ p.assignOrdinal scope floor item counters = .done item counters) ∨
    ∃ o value, item = Entity.toValue o ∧ (o.value p.name).isDefault = true ∧
      value.integer? = some (counters.next scope floor) ∧
      p.assignOrdinal scope floor item counters =
        .done (o.set p.name value).toValue (counters.advance scope floor) := by
  obtain ⟨hpositive, hle⟩ := hcounters.next_pos scope hfloor
  by_cases hitem : p.Numbers item
  · exact .inl ⟨hitem, p.assignOrdinal_done hitem scope floor counters⟩
  · unfold Numbers at hitem
    push Not at hitem
    obtain ⟨o, ho, hmissing⟩ := hitem
    obtain rfl := Value.eq_toValue ho
    have hmissing : (o.value p.name).isDefault = true := by simpa using hmissing
    unfold assignOrdinal Entity.toValue at hdone ⊢
    dsimp only at hdone ⊢
    rw [if_pos hmissing] at hdone ⊢
    cases hvalue : p.ordinalValue (counters.next scope floor) with
    | error fault =>
      rw [hvalue] at hdone
      cases hdone
    | ok value => exact .inr ⟨o, value, rfl, hmissing, ordinalValue_ok hvalue hpositive hle, rfl⟩

/-- A pass over the items of a collection starts above the last number of the scope. -/
theorem rises_items {floor : Int} (hcounters : counters.Below) (hfloor : floor < greatestNumber)
    {position : Nat}
    (hdone : (Progress.items (fun _ ↦ p.assignOrdinal scope floor) position items counters).fault =
      none)
    (hbelow : ∀ item ∈
      (Progress.items (fun _ ↦ p.assignOrdinal scope floor) position items counters).value,
        p.KeepsBelow item) :
    p.Rises (max (counters.last scope) floor) items
      (Progress.items (fun _ ↦ p.assignOrdinal scope floor) position items counters).value := by
  induction items generalizing position counters with
  | nil => exact .nil _
  | cons item rest ih =>
    obtain ⟨hfirst, hitems⟩ := Progress.items_cons_done hdone
    rw [hitems] at hdone hbelow ⊢
    obtain ⟨hitem, hbelow⟩ := List.forall_mem_cons.1 hbelow
    obtain ⟨-, hnext⟩ := assignOrdinal_numbers hcounters hfloor hfirst hitem
    have hrest := ih hnext hdone hbelow
    rcases assignOrdinal_cases hcounters hfloor hfirst with
      ⟨hnumbers, heq⟩ | ⟨o, value, rfl, hmissing, hvalue, heq⟩
    · rw [heq] at hrest ⊢
      exact .keep hnumbers hrest
    · rw [heq] at hrest ⊢
      have hnumber := hcounters.next_eq scope hfloor
      have hlast : max ((counters.advance scope floor).last scope) floor =
          counters.next scope floor := by
        rw [counters.last_advance]
        omega
      change p.Rises (max ((counters.advance scope floor).last scope) floor) _ _ at hrest
      rw [hlast] at hrest
      exact .give hmissing hvalue (by omega) hrest

end Property

/-! ## Passes at any depth -/

namespace Value

/-- The second value is the first one with numbers for the items of collections, given in passes:
one for a numbered key over the items of one collection.  The values are an entity of the type, or a
collection of such entities. -/
inductive Numbered : EntityType → Value → Value → Prop
  | refl (t : EntityType) (value : Value) : Numbered t value value
  | trans {t : EntityType} {first second third : Value} (h : Numbered t first second)
      (hnext : Numbered t second third) : Numbered t first third
  | pass {t : EntityType} {p : Property} {container : Container} {items others : List Value}
      {floor : Int} (hp : p ∈ t.ordinalKeys) (hfloor : 0 ≤ floor)
      (hheld : p.ordinalFloor items ≤ floor) (h : p.Rises floor items others) :
      Numbered t (collection container items) (collection container others)
  | inside {t : EntityType} {n : Navigation EntityType} {e : Entity} {old new : Value}
      (hn : n ∈ t.navigations) (hmember : e.get? n.name = some old)
      (h : Numbered n.target old new) : Numbered t e.toValue (e.set n.name new).toValue
  | item {t : EntityType} {container : Container} {o f : Entity} (front back : List Value)
      (h : Numbered t o.toValue f.toValue) :
      Numbered t (collection container (front ++ o.toValue :: back))
        (collection container (front ++ f.toValue :: back))

namespace Numbered

variable {t : EntityType}

theorem completes {value other : Value} (h : Numbered t value other) : Completes value other := by
  induction h with
  | refl => exact .refl _
  | trans _ _ ih ihnext => exact ih.trans ihnext
  | pass _ _ _ h => exact .of_items h.completes _
  | inside _ hmember _ ih => exact .inside hmember ih
  | item front back _ ih => exact .item front back ih

/-- An item as it is, or with numbers for what it owns. -/
def Item (t : EntityType) (item other : Value) : Prop :=
  other = item ∨ ∃ o f : Entity, item = o.toValue ∧ other = f.toValue ∧ Numbered t item other

theorem of_items {items others : List Value} (h : List.Forall₂ (Item t) items others)
    (container : Container) :
    Numbered t (collection container items) (collection container others) := by
  suffices hfront : ∀ front, Numbered t (collection container (front ++ items))
      (collection container (front ++ others)) from hfront []
  induction h with
  | nil => exact fun front ↦ .refl _ _
  | @cons item other items others hitem _ ih =>
    intro front
    have hrest := ih (front ++ [other])
    rw [List.append_assoc, List.append_assoc] at hrest
    rcases hitem with rfl | ⟨o, f, rfl, rfl, hitem⟩
    · exact hrest
    · exact (Numbered.item front items hitem).trans hrest

end Numbered

end Value

open Value (Numbered)

/-! ## Numbering takes passes -/

namespace Property

variable {p : Property} {scope : String} {items : List Value} {counters : OrdinalCounters}

/-- One pass, and the numbers last given out after it. -/
theorem numbered_pass {t : EntityType} (hp : p ∈ t.ordinalKeys) (hcounters : counters.Below)
    (hdone : (p.numberItems scope items counters).fault = none)
    (hbelow : ∀ item ∈ (p.numberItems scope items counters).value, p.KeepsBelow item)
    (container : Container) :
    Numbered t (.collection container items)
        (.collection container (p.numberItems scope items counters).value) ∧
      (p.numberItems scope items counters).state.Below := by
  obtain ⟨hfloor, -, hlast⟩ := numberItems_pass hcounters hdone hbelow
  have hrises := rises_items hcounters hfloor hdone hbelow
  exact ⟨.pass hp (le_max_of_le_left (hcounters scope).1) (le_max_right ..) hrises, hlast⟩

theorem numbered_passes {t : EntityType} {properties : List Property}
    (hproperties : ∀ p ∈ properties, p ∈ t.ordinalKeys) (hcounters : counters.Below)
    (hdone : (Progress.steps (numberItems scope) properties items counters).fault = none)
    (hbelow : ∀ p ∈ properties, ∀ o, Entity.toValue o ∈
      (Progress.steps (numberItems scope) properties items counters).value →
        (o.value p.name).integer? ≠ some greatestNumber) (container : Container) :
    Numbered t (.collection container items) (.collection container
      (Progress.steps (numberItems scope) properties items counters).value) := by
  induction properties generalizing items counters with
  | nil => exact .refl _ _
  | cons p rest ih =>
    rw [Progress.steps] at hdone hbelow ⊢
    obtain ⟨hfirst, hnext⟩ := Progress.andThen_done hdone
    rw [hnext] at hdone hbelow ⊢
    obtain ⟨hp, hrest⟩ := List.forall_mem_cons.1 hproperties
    obtain ⟨hbelowFirst, hbelow⟩ := List.forall_mem_cons.1 hbelow
    have hlater := (completes_numberItems scope rest (p.numberItems scope items counters).value
      (p.numberItems scope items counters).state container).items
    obtain ⟨hpass, hmiddle⟩ := numbered_pass hp hcounters hfirst
      (keepsBelow_of_completed hlater hbelowFirst) container
    exact hpass.trans (ih hrest hmiddle hdone hbelow)

end Property

namespace EntityType

/-- Numbering an entity of the type takes passes. -/
def NumbersInPasses (t : EntityType) : Prop :=
  ∀ scope e counters, OrdinalCounters.Below counters →
    (t.assignOrdinals scope e counters).fault = none →
    t.AllItems BelowGreatest (t.assignOrdinals scope e counters).value →
      Numbered t e.toValue (t.assignOrdinals scope e counters).value.toValue

section Walk

variable {t : EntityType} {n : Navigation EntityType} {scope : String} {counters : OrdinalCounters}

theorem numbered_assignOwned (h : t.NumbersInPasses) {position : Nat} {item : Value}
    (hcounters : counters.Below)
    (hdone : (t.assignOwned scope position item counters).fault = none)
    (hbelow : ∀ o, (t.assignOwned scope position item counters).value.entity? = some o →
      t.AllItems BelowGreatest o) :
    Numbered.Item t item (t.assignOwned scope position item counters).value := by
  cases item with
  | entity type members =>
    exact .inr ⟨⟨type, members⟩, _, rfl, rfl,
      h _ ⟨type, members⟩ counters hcounters hdone (hbelow _ rfl)⟩
  | _ => exact .inl rfl

theorem numbered_assignCollection (h : t.NumbersInPasses) {items : List Value}
    (hcounters : counters.Below) (hdone : (t.assignCollection scope items counters).fault = none)
    (hbelow : ∀ o, Entity.toValue o ∈ (t.assignCollection scope items counters).value →
      t.BelowGreatest o ∧ t.AllItems BelowGreatest o) (container : Container) :
    Numbered t (.collection container items)
      (.collection container (t.assignCollection scope items counters).value) := by
  unfold assignCollection at hdone hbelow ⊢
  obtain ⟨hfirst, hnext⟩ := Progress.andThen_done hdone
  rw [hnext] at hdone hbelow ⊢
  rw [assignItems_eq] at hfirst hdone hbelow ⊢
  have hbelowMiddle := below_of_assignOwned fun o ho ↦ (hbelow o ho).1
  obtain ⟨-, hmiddle⟩ := Property.numberItems_numbers hcounters hfirst hbelowMiddle
  have hpasses : Numbered t (.collection container items) (.collection container _) :=
    Property.numbered_passes (fun _ hp ↦ hp) hcounters hfirst hbelowMiddle container
  obtain ⟨hitems, -⟩ := Progress.items_ensures (I := OrdinalCounters.Below)
    (P := fun item ↦ ∀ o, item.entity? = some o → t.AllItems BelowGreatest o)
    (r := Numbered.Item t)
    (fun _ _ _ hcounters hdone hbelow ↦ ⟨numbered_assignOwned h hcounters hdone hbelow,
      (assignOwned_numbers t.numbers hcounters hdone hbelow).2⟩)
    hmiddle hdone fun item hitem o ho ↦ (hbelow o (Value.eq_toValue ho ▸ hitem)).2
  exact hpasses.trans (.of_items hitems container)

theorem numbered_assignNavigation (h : n.target.NumbersInPasses) {value : Value}
    (hcounters : counters.Below) (hdone : (assignNavigation scope n value counters).fault = none)
    (hbelow : n.AllItems BelowGreatest (assignNavigation scope n value counters).value) :
    Numbered n.target value (assignNavigation scope n value counters).value := by
  cases value with
  | entity type members =>
    have hentity := assignNavigation_entity scope n counters ⟨type, members⟩
    rw [Entity.toValue] at hentity
    rw [hentity] at hdone hbelow ⊢
    exact h _ ⟨type, members⟩ _ hcounters hdone (Navigation.allItems_toValue.1 hbelow)
  | collection container items =>
    rw [assignNavigation_collection] at hdone hbelow ⊢
    exact numbered_assignCollection h hcounters hdone (Navigation.allItems_collection.1 hbelow) _
  | _ =>
    rw [assignNavigation_plain ⟨rfl, rfl⟩]
    exact .refl _ _

theorem numbered_assignMember (hn : n ∈ t.navigations) (h : n.target.NumbersInPasses) {e : Entity}
    (hcounters : counters.Below) (hdone : (assignMember scope n e counters).fault = none)
    (hbelow : n.AllItems BelowGreatest ((assignMember scope n e counters).value.value n.name)) :
    Numbered t e.toValue (assignMember scope n e counters).value.toValue := by
  unfold assignMember at hdone hbelow ⊢
  cases hvalue : e.get? n.name with
  | some value =>
    rw [hvalue] at hdone hbelow
    unfold Progress.map at hdone hbelow ⊢
    dsimp only at hdone hbelow ⊢
    rw [Entity.value_set, if_pos rfl] at hbelow
    exact .inside hn hvalue (numbered_assignNavigation h hcounters hdone hbelow)
  | none => exact .refl _ _

theorem numbered_assignNavigations {navigations : List (Navigation EntityType)}
    (hnavigations : ∀ n ∈ navigations, n ∈ t.navigations)
    (h : ∀ n ∈ navigations, n.target.NumbersInPasses) {e : Entity} (hcounters : counters.Below)
    (hdone : (assignNavigations scope navigations e counters).fault = none)
    (hbelow : ∀ n ∈ navigations, n.AllItems BelowGreatest
      ((assignNavigations scope navigations e counters).value.value n.name)) :
    Numbered t e.toValue (assignNavigations scope navigations e counters).value.toValue := by
  induction navigations generalizing e counters with
  | nil =>
    rw [assignNavigations]
    exact .refl _ _
  | cons n rest ih =>
    obtain ⟨hn, hrest⟩ := List.forall_mem_cons.1 h
    obtain ⟨hmember, hmembers⟩ := List.forall_mem_cons.1 hnavigations
    rw [assignNavigations_cons] at hdone hbelow ⊢
    obtain ⟨hfirst, hnext⟩ := Progress.andThen_done hdone
    rw [hnext] at hdone hbelow ⊢
    obtain ⟨hbelowFirst, hbelow⟩ := List.forall_mem_cons.1 hbelow
    have hlater : Completes (assignMember scope n e counters).value.toValue
        (assignNavigations scope rest (assignMember scope n e counters).value
          (assignMember scope n e counters).state).value.toValue :=
      completes_assignNavigations (fun n _ ↦ n.target.completes_assignOrdinals) scope _ _
    have hbelowMiddle := hbelowFirst.member_of_completed hlater
    have hmiddle := (assignMember_numbers n.target.numbers hcounters hfirst hbelowMiddle).2
    exact (numbered_assignMember hmember hn hcounters hfirst hbelowMiddle).trans
      (ih hmembers hrest hmiddle hdone hbelow)

end Walk

theorem numbersInPasses (t : EntityType) : t.NumbersInPasses := by
  induction t using owned_induction with
  | h t ih =>
    intro scope e counters hcounters hdone hbelow
    rw [assignOrdinals_eq] at hdone hbelow ⊢
    exact numbered_assignNavigations (fun _ hn ↦ hn) ih hcounters hdone hbelow

end EntityType

end DocMapping
