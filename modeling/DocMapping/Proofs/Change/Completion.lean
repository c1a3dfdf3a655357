import DocMapping.Proofs.Change.Inserts
import DocMapping.Proofs.Value.Owned

/-!
# Completions

Keys are generated and owned entities are numbered by giving values to members that have none, at any
depth of an entity.  All that has a value keeps it, and every owned entity stays in its place.
-/

namespace DocMapping

namespace Value

theorem isPlain_of_isDefault {value : Value} (h : value.isDefault = true) : value.IsPlain := by
  cases value <;> first | exact ⟨rfl, rfl⟩ | cases h

/-- Members without a value are given one, in any of the entities that a value holds. -/
inductive Completes : Value → Value → Prop
  | refl (value : Value) : Completes value value
  | trans {first second third : Value} (h : Completes first second)
      (hnext : Completes second third) : Completes first third
  | fill (e : Entity) (member : String) {value : Value}
      (hmissing : (e.value member).isDefault = true) (hvalue : value.IsPlain) :
      Completes e.toValue (e.set member value).toValue
  | inside {e : Entity} {member : String} {old new : Value} (hmember : e.get? member = some old)
      (h : Completes old new) : Completes e.toValue (e.set member new).toValue
  | item {container : Container} {old new : Value} (front back : List Value)
      (h : Completes old new) :
      Completes (collection container (front ++ old :: back))
        (collection container (front ++ new :: back))

namespace Completes

variable {value completed : Value}

theorem isDefault_eq (h : Completes value completed) : completed.isDefault = value.isDefault := by
  induction h with
  | trans _ _ ih ihnext => exact ihnext.trans ih
  | _ => rfl

theorem entity?_isSome (h : Completes value completed) :
    completed.entity?.isSome = value.entity?.isSome := by
  induction h with
  | trans _ _ ih ihnext => exact ihnext.trans ih
  | _ => rfl

theorem elements?_isSome (h : Completes value completed) :
    completed.elements?.isSome = value.elements?.isSome := by
  induction h with
  | trans _ _ ih ihnext => exact ihnext.trans ih
  | _ => rfl

theorem eq_of_isPlain (h : Completes value completed) (hvalue : value.IsPlain) :
    completed = value := by
  induction h with
  | refl => rfl
  | trans _ _ ih ihnext =>
    obtain rfl := ih hvalue
    exact ihnext hvalue
  | fill | inside => cases hvalue.1
  | item => cases hvalue.2

/-- A completed entity has the completed value of every member, or a value in place of none. -/
theorem member (h : Completes value completed) {e : Entity} (hvalue : value.entity? = some e) :
    ∃ f, completed.entity? = some f ∧ ∀ member, Completes (e.value member) (f.value member) ∨
      (e.value member).isDefault = true ∧ (f.value member).IsPlain := by
  induction h generalizing e with
  | refl => exact ⟨e, hvalue, fun member ↦ .inl (.refl _)⟩
  | trans _ _ ih ihnext =>
    obtain ⟨f, hf, hfirst⟩ := ih hvalue
    obtain ⟨g, hg, hsecond⟩ := ihnext hf
    refine ⟨g, hg, fun member ↦ ?_⟩
    rcases hfirst member with hcompletes | ⟨hmissing, hplain⟩ <;>
      rcases hsecond member with hnext | ⟨hnext, hlast⟩
    · exact .inl (hcompletes.trans hnext)
    · exact .inr ⟨hcompletes.isDefault_eq.symm.trans hnext, hlast⟩
    · exact .inr ⟨hmissing, (hnext.eq_of_isPlain hplain).symm ▸ hplain⟩
    · exact .inr ⟨hmissing, hlast⟩
  | fill e name hmissing hplain =>
    cases hvalue
    refine ⟨_, rfl, fun member ↦ ?_⟩
    rw [Entity.value_set]
    split
    · next hname => exact .inr ⟨hname ▸ hmissing, hplain⟩
    · exact .inl (.refl _)
  | @inside e name old new hmember h _ =>
    cases hvalue
    refine ⟨_, rfl, fun member ↦ .inl ?_⟩
    rw [Entity.value_set]
    split
    · next hname =>
      have hold : e.value member = old := by
        rw [Entity.value, hname, hmember]
        rfl
      exact hold ▸ h
    · exact .refl _
  | item => cases hvalue

/-- A member that has a value keeps one. -/
theorem isDefault_member {e f : Entity} (h : Completes e.toValue f.toValue) {member : String}
    (hvalue : (e.value member).isDefault = false) : (f.value member).isDefault = false := by
  obtain ⟨_, hf, hmember⟩ := h.member (e := e) rfl
  cases hf
  rcases hmember member with hcompletes | ⟨hmissing, -⟩
  · exact hcompletes.isDefault_eq.trans hvalue
  · exact absurd (hmissing.symm.trans hvalue) (by simp)

/-- A member that has a scalar value keeps it. -/
theorem value_member {e f : Entity} (h : Completes e.toValue f.toValue) {member : String}
    (hvalue : (e.value member).isDefault = false) (hplain : (e.value member).IsPlain) :
    f.value member = e.value member := by
  obtain ⟨_, hf, hmember⟩ := h.member (e := e) rfl
  cases hf
  rcases hmember member with hcompletes | ⟨hmissing, -⟩
  · exact hcompletes.eq_of_isPlain hplain
  · exact absurd (hmissing.symm.trans hvalue) (by simp)

/-- A completed collection has the completed items in their order. -/
theorem elements (h : Completes value completed) {items : List Value}
    (hvalue : value.elements? = some items) :
    ∃ others, completed.elements? = some others ∧ List.Forall₂ Completes items others := by
  induction h generalizing items with
  | refl => exact ⟨items, hvalue, List.forall₂_same.2 fun item _ ↦ .refl item⟩
  | trans _ _ ih ihnext =>
    obtain ⟨others, hothers, hfirst⟩ := ih hvalue
    obtain ⟨last, hlast, hsecond⟩ := ihnext hothers
    refine ⟨last, hlast, ?_⟩
    clear hvalue hothers hlast
    induction hfirst generalizing last with
    | nil =>
      cases hsecond
      exact .nil
    | cons hitem _ ihitems =>
      cases hsecond with
      | cons hnext hrest => exact .cons (hitem.trans hnext) (ihitems _ hrest)
  | fill | inside => cases hvalue
  | item front back h =>
    cases hvalue
    refine ⟨_, rfl, List.rel_append (List.forall₂_same.2 fun item _ ↦ .refl item) (.cons h ?_)⟩
    exact List.forall₂_same.2 fun item _ ↦ .refl item

theorem of_items {items others : List Value} (h : List.Forall₂ Completes items others)
    (container : Container) :
    Completes (collection container items) (collection container others) := by
  suffices hfront : ∀ front, Completes (collection container (front ++ items))
      (collection container (front ++ others)) from hfront []
  induction h with
  | nil => exact fun front ↦ .refl _
  | @cons item other rest others hitem _ ih =>
    intro front
    have hrest := ih (front ++ [other])
    rw [List.append_assoc, List.append_assoc] at hrest
    exact (Completes.item front rest hitem).trans hrest

theorem items {items others : List Value} {container : Container}
    (h : Completes (collection container items) (collection container others)) :
    List.Forall₂ Completes items others := by
  obtain ⟨_, hothers, hall⟩ := h.elements rfl
  cases hothers
  exact hall

/-- Owned entities stay in their places. -/
theorem owned (h : Completes value completed) :
    List.Forall₂ (fun e f ↦ Completes e.toValue f.toValue) value.owned completed.owned := by
  cases hentity : value.entity? with
  | some e =>
    obtain ⟨f, hf, -⟩ := h.member hentity
    rw [eq_toValue hentity, eq_toValue hf] at h ⊢
    exact .cons h .nil
  | none =>
    cases helements : value.elements? with
    | some items =>
      obtain ⟨others, hothers, hitems⟩ := h.elements helements
      obtain ⟨container, rfl⟩ : ∃ container, value = collection container items := by
        cases value <;> cases helements
        exact ⟨_, rfl⟩
      obtain ⟨other, rfl⟩ : ∃ other, completed = collection other others := by
        cases completed <;> cases hothers
        exact ⟨_, rfl⟩
      change List.Forall₂ _ (items.filterMap entity?) (others.filterMap entity?)
      refine List.rel_filterMap ?_ hitems
      intro item other hitem
      cases hitemEntity : item.entity? with
      | some e =>
        obtain ⟨f, hf, -⟩ := hitem.member hitemEntity
        rw [hf]
        rw [eq_toValue hitemEntity, eq_toValue hf] at hitem
        exact .some hitem
      | none =>
        have hnone : other.entity? = none := by
          rw [← Option.not_isSome_iff_eq_none, hitem.entity?_isSome, hitemEntity]
          simp
        rw [hnone]
        exact .none
    | none =>
      rw [h.eq_of_isPlain ⟨hentity, helements⟩]
      exact List.forall₂_same.2 fun e _ ↦ .refl _

end Completes

/-- Every entity among items is there completed. -/
theorem exists_completed {items others : List Value} (h : List.Forall₂ Completes items others)
    {o : Entity} (ho : o.toValue ∈ items) :
    ∃ f : Entity, f.toValue ∈ others ∧ Completes o.toValue f.toValue := by
  obtain ⟨other, hother, hitem⟩ := Outcome.exists_right h ho
  obtain ⟨f, hf, -⟩ := hitem.member (e := o) rfl
  obtain rfl := eq_toValue hf
  exact ⟨f, hother, hitem⟩

/-- Every entity among completed items was there before. -/
theorem exists_before {items others : List Value} (h : List.Forall₂ Completes items others)
    {f : Entity} (hf : f.toValue ∈ others) :
    ∃ o : Entity, o.toValue ∈ items ∧ Completes o.toValue f.toValue := by
  obtain ⟨item, hmem, hitem⟩ := Outcome.exists_left h hf
  obtain ⟨o, ho⟩ := Option.isSome_iff_exists.1 hitem.entity?_isSome.symm
  obtain rfl := eq_toValue ho
  exact ⟨o, hmem, hitem⟩

/-! ## Order of members -/

theorem IsPlain.sorted {value : Value} (h : value.IsPlain) : value.Sorted := by
  cases value with
  | entity => cases h.1
  | collection => cases h.2
  | _ => trivial

theorem Sorted.set {e : Entity} (h : e.toValue.Sorted) (member : String) {value : Value}
    (hvalue : value.Sorted) : (e.set member value).toValue.Sorted := by
  refine ⟨h.1.set member value, sortedMembers_iff.2 fun entry hentry ↦ ?_⟩
  rcases Entity.mem_insertMember hentry with rfl | hold
  · exact hvalue
  · exact sortedMembers_iff.1 h.2 entry hold

theorem Completes.sorted {value completed : Value} (h : Completes value completed)
    (hvalue : value.Sorted) : completed.Sorted := by
  induction h with
  | refl => exact hvalue
  | trans _ _ ih ihnext => exact ihnext (ih hvalue)
  | fill e member _ hplain => exact hvalue.set member hplain.sorted
  | @inside e member old new hmember _ ih =>
    refine hvalue.set member (ih ?_)
    exact sortedMembers_iff.1 hvalue.2 (member, old) (Association.mem_of_lookup hmember)
  | item front back _ ih =>
    refine sortedItems_iff.2 fun item hitem ↦ ?_
    have hitems := sortedItems_iff.1 hvalue
    rcases List.mem_append.1 hitem with hfront | hback
    · exact hitems item (List.mem_append_left _ hfront)
    · rcases List.mem_cons.1 hback with rfl | hback
      · exact ih (hitems _ (List.mem_append_right _ List.mem_cons_self))
      · exact hitems item (List.mem_append_right _ (List.mem_cons_of_mem _ hback))

end Value

open Value (Completes)

/-! ## Work item by item -/

namespace Progress

variable {σ α β : Type} {r : α → α → Prop}

theorem rel_andThen {p : Progress σ α} {next : α → σ → Progress σ α} {start : α}
    (htrans : ∀ a b c, r a b → r b c → r a c) (hp : r start p.value)
    (hnext : ∀ value state, r value (next value state).value) :
    r start (p.andThen next).value :=
  value_andThen (P := r start) hp fun value state h ↦ htrans _ _ _ h (hnext value state)

theorem rel_steps {step : β → α → σ → Progress σ α} (hrefl : ∀ a, r a a)
    (htrans : ∀ a b c, r a b → r b c → r a c)
    (hstep : ∀ b value state, r value (step b value state).value) (instructions : List β)
    (value : α) (state : σ) : r value (steps step instructions value state).value := by
  induction instructions generalizing value state with
  | nil => exact hrefl value
  | cons b rest ih => exact rel_andThen htrans (hstep b value state) ih

theorem rel_items {work : Nat → α → σ → Progress σ α} (hrefl : ∀ a, r a a)
    (hwork : ∀ position item state, r item (work position item state).value) (position : Nat)
    (list : List α) (state : σ) :
    List.Forall₂ r list (items work position list state).value := by
  induction list generalizing position state with
  | nil => exact .nil
  | cons item rest ih =>
    rw [items]
    split
    · exact .cons (hwork ..) (List.forall₂_same.2 fun a _ ↦ hrefl a)
    · exact .cons (hwork ..) (ih ..)

end Progress

/-! ## Generated keys and numbers -/

theorem IdSource.isPlain_generate {ids : IdSource} {t : EntityType} {p : Property} {number : Nat}
    {value : Value} (h : ids.generate t p number = .ok value) : value.IsPlain := by
  unfold IdSource.generate at h
  split at h <;> cases h <;> exact ⟨rfl, rfl⟩

theorem IdSource.completes_generateKeys (ids : IdSource) (t : EntityType) (keys : List Property)
    (e : Entity) (issued : Nat) :
    Completes e.toValue (Progress.steps (ids.generateKey t) keys e issued).value.toValue := by
  refine Progress.rel_steps (r := fun e f : Entity ↦ Completes e.toValue f.toValue)
    (fun e ↦ .refl _) (fun _ _ _ ↦ .trans) (fun p e issued ↦ ?_) keys e issued
  unfold IdSource.generateKey
  split
  · next hmissing =>
    split
    · next value hvalue => exact .fill e p.name hmissing (isPlain_generate hvalue)
    · exact .refl _
  · exact .refl _

theorem Property.isPlain_ordinalValue {p : Property} {number : Int} {value : Value}
    (h : p.ordinalValue number = .ok value) : value.IsPlain := by
  unfold ordinalValue at h
  split at h
  · split at h <;> cases h
    exact ⟨rfl, rfl⟩
  · cases h
    exact ⟨rfl, rfl⟩

theorem Property.completes_assignOrdinal (p : Property) (scope : String) (floor : Int)
    (item : Value) (counters : OrdinalCounters) :
    Completes item (p.assignOrdinal scope floor item counters).value := by
  unfold assignOrdinal
  split
  · next type members =>
    dsimp only
    split
    · next hmissing =>
      split
      · next value hvalue =>
        exact .fill ⟨type, members⟩ p.name hmissing (isPlain_ordinalValue hvalue)
      · exact .refl _
    · exact .refl _
  · exact .refl _

/-- One pass over the items of a collection, in which a property gets its numbers. -/
def Property.numberItems (scope : String) (p : Property) (items : List Value)
    (counters : OrdinalCounters) : Progress OrdinalCounters (List Value) :=
  Progress.items (fun _ ↦ p.assignOrdinal scope (p.ordinalFloor items)) 0 items counters

theorem Property.completes_pass (scope : String) (p : Property) (items : List Value)
    (counters : OrdinalCounters) :
    List.Forall₂ Completes items (p.numberItems scope items counters).value :=
  Progress.rel_items .refl (fun _ ↦ p.completes_assignOrdinal scope _) 0 items counters

theorem Property.completes_numberItems (scope : String) (properties : List Property)
    (items : List Value) (counters : OrdinalCounters) (container : Container) :
    Completes (.collection container items) (.collection container
      (Progress.steps (numberItems scope) properties items counters).value) := by
  refine Progress.rel_steps
    (r := fun items others ↦ Completes (.collection container items) (.collection container others))
    (fun _ ↦ .refl _) (fun _ _ _ ↦ .trans) (fun p items counters ↦ ?_) properties items counters
  exact .of_items (p.completes_pass scope items counters) _

namespace EntityType

theorem assignItems_eq (t : EntityType) (scope : String) :
    t.assignItems scope = Progress.steps (Property.numberItems scope) t.ordinalKeys :=
  rfl

theorem assignOrdinals_eq (t : EntityType) (scope : String) (e : Entity)
    (counters : OrdinalCounters) :
    t.assignOrdinals scope e counters = assignNavigations scope t.navigations e counters := by
  cases t
  rw [assignOrdinals]

/-- Numbers what the item of a collection at a position owns. -/
def assignOwned (t : EntityType) (scope : String) (position : Nat) (item : Value)
    (counters : OrdinalCounters) : Progress OrdinalCounters Value :=
  match item with
  | .entity type members =>
    (t.assignOrdinals (scope ++ "/" ++ toString position) ⟨type, members⟩ counters).map
      Entity.toValue
  | other => .done other counters

/-- Numbers the items of a collection, then what they own. -/
def assignCollection (t : EntityType) (scope : String) (items : List Value)
    (counters : OrdinalCounters) : Progress OrdinalCounters (List Value) :=
  (t.assignItems scope items counters).andThen (Progress.items (t.assignOwned scope) 0)

section Navigation

variable (scope : String) (n : Navigation EntityType) (counters : OrdinalCounters)

theorem assignNavigation_entity (e : Entity) :
    assignNavigation scope n e.toValue counters =
      (n.target.assignOrdinals (scope ++ "/" ++ n.element) e counters).map Entity.toValue := by
  cases n
  rw [Entity.toValue, assignNavigation]

theorem assignNavigation_collection (container : Container) (items : List Value) :
    assignNavigation scope n (.collection container items) counters =
      (n.target.assignCollection (scope ++ "/" ++ n.element) items counters).map
        (Value.collection container) := by
  cases n
  rw [assignNavigation]
  rfl

end Navigation

theorem completes_assignOwned {t : EntityType}
    (h : ∀ scope e counters, Completes e.toValue (t.assignOrdinals scope e counters).value.toValue)
    (scope : String) (position : Nat) (item : Value) (counters : OrdinalCounters) :
    Completes item (t.assignOwned scope position item counters).value := by
  unfold assignOwned
  split
  · next type members => exact h _ ⟨type, members⟩ counters
  · exact .refl _

/-- Numbering what a navigation holds completes it, if numbering owned entities does. -/
theorem completes_assignNavigation {n : Navigation EntityType}
    (htarget : ∀ scope e counters,
      Completes e.toValue (n.target.assignOrdinals scope e counters).value.toValue)
    (scope : String) (value : Value) (counters : OrdinalCounters) :
    Completes value (assignNavigation scope n value counters).value := by
  cases value with
  | entity type members =>
    have hentity := assignNavigation_entity scope n counters ⟨type, members⟩
    rw [Entity.toValue] at hentity
    rw [hentity]
    exact htarget _ ⟨type, members⟩ counters
  | collection container items =>
    rw [assignNavigation_collection]
    refine Progress.rel_andThen
      (r := fun items others ↦
        Completes (.collection container items) (.collection container others))
      (fun _ _ _ ↦ .trans) (Property.completes_numberItems _ _ _ _ _) fun items counters ↦ ?_
    exact .of_items (Progress.rel_items .refl (completes_assignOwned htarget _) 0 _ _) _
  | _ =>
    rw [assignNavigation_plain ⟨rfl, rfl⟩]
    exact .refl _

/-- Numbers what an entity has in one of its navigations. -/
def assignMember (scope : String) (n : Navigation EntityType) (e : Entity)
    (counters : OrdinalCounters) : Progress OrdinalCounters Entity :=
  match e.get? n.name with
  | some value => (assignNavigation scope n value counters).map (e.set n.name)
  | none => .done e counters

theorem assignNavigations_cons (scope : String) (n : Navigation EntityType)
    (rest : List (Navigation EntityType)) (e : Entity) (counters : OrdinalCounters) :
    assignNavigations scope (n :: rest) e counters =
      (assignMember scope n e counters).andThen (assignNavigations scope rest) := by
  rw [assignNavigations]
  rfl

theorem completes_assignNavigations {navigations : List (Navigation EntityType)}
    (h : ∀ n ∈ navigations, ∀ scope e counters,
      Completes e.toValue (n.target.assignOrdinals scope e counters).value.toValue)
    (scope : String) (e : Entity) (counters : OrdinalCounters) :
    Completes e.toValue (assignNavigations scope navigations e counters).value.toValue := by
  induction navigations generalizing e counters with
  | nil =>
    rw [assignNavigations]
    exact .refl _
  | cons n rest ih =>
    obtain ⟨hn, hrest⟩ := List.forall_mem_cons.1 h
    rw [assignNavigations_cons]
    refine Progress.rel_andThen (r := fun e f : Entity ↦ Completes e.toValue f.toValue)
      (fun _ _ _ ↦ .trans) ?_ (ih hrest)
    unfold assignMember
    split
    · next value hvalue =>
      exact .inside hvalue (completes_assignNavigation hn scope value counters)
    · exact .refl _

theorem completes_assignOrdinals (t : EntityType) (scope : String) (e : Entity)
    (counters : OrdinalCounters) :
    Completes e.toValue (t.assignOrdinals scope e counters).value.toValue := by
  induction t using owned_induction generalizing scope e counters with
  | h t ih =>
    rw [assignOrdinals_eq]
    exact completes_assignNavigations ih scope e counters

end EntityType

namespace ChangeEntry

theorem completes_assignOrdinals (e : ChangeEntry) (collection : String) (s : KeyState) :
    Completes e.current.toValue (e.assignOrdinals collection s).value.current.toValue := by
  unfold assignOrdinals
  split
  · exact .refl _
  · exact e.type.completes_assignOrdinals _ _ _

/-- Completing the keys of an entry completes its entity. -/
theorem completes_completeKeys (e : ChangeEntry) (ids : IdSource) (collection : String)
    (s : KeyState) :
    Completes e.current.toValue (e.completeKeys ids collection s).value.current.toValue := by
  unfold completeKeys
  split
  · exact Progress.rel_andThen
      (r := fun e f : ChangeEntry ↦ Completes e.current.toValue f.current.toValue)
      (fun _ _ _ ↦ .trans) (ids.completes_generateKeys _ _ _ _)
      fun e s ↦ e.completes_assignOrdinals collection s
  · exact e.completes_assignOrdinals collection s
  · exact .refl _

end ChangeEntry

end DocMapping
