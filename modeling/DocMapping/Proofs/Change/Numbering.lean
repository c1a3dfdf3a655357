import DocMapping.Proofs.Change.Completion

/-!
# Numbers of Owned Entities

Once owned entities have been numbered, every item of a collection has its numbers, at any depth, as
long as no number reaches the greatest of 64 bits, after which numbers would start again.  Where all
items have their numbers, numbering them again changes nothing and gives out no number.
-/

namespace DocMapping

open Value (Completes)

/-- The greatest number of 64 bits. -/
def greatestNumber : Int := 2 ^ 63 - 1

theorem greatestNumber_pos : 0 < greatestNumber := by
  unfold greatestNumber
  decide

/-! ## Scalar numbers -/

namespace Value

variable {value : Value} {number : Int}

theorem integer?_le (h : value.integer? = some number) : number ≤ greatestNumber := by
  unfold greatestNumber
  cases value <;> cases h
  · next value =>
    have hlt := value.toInt_lt
    omega
  · next value =>
    have hlt := value.toInt_lt
    omega
  · next value =>
    have hlt := value.toInt_lt
    omega

theorem isPlain_of_integer? (h : value.integer? = some number) : value.IsPlain := by
  cases value <;> first | exact ⟨rfl, rfl⟩ | cases h

theorem isDefault_of_integer? (h : value.integer? = some number) (hnumber : number ≠ 0) :
    value.isDefault = false := by
  cases value <;> cases h
  all_goals
    refine beq_eq_false_iff_ne.2 ?_
    rintro rfl
    exact hnumber rfl

end Value

theorem Property.ordinalValue_ok {p : Property} {number : Int} {value : Value}
    (h : p.ordinalValue number = .ok value) (hpositive : 0 < number)
    (hle : number ≤ greatestNumber) : value.integer? = some number := by
  unfold ordinalValue at h
  unfold greatestNumber at hle
  split at h
  · split at h
    · next hrange =>
      cases h
      exact congrArg some (Int32.toInt_ofInt_of_le hrange.1 hrange.2)
    · cases h
  · cases h
    exact congrArg some (Int64.toInt_ofInt_of_le (by omega) (by omega))

/-! ## Counters -/

namespace OrdinalCounters

variable {counters : OrdinalCounters}

theorem set_eq_put (counters : OrdinalCounters) (scope : String) (number : Int) :
    counters.set scope number = Association.put scope number counters := by
  induction counters with
  | nil => rfl
  | cons entry rest ih =>
    obtain ⟨first, old⟩ := entry
    rw [set, Association.put, ih]

theorem last_set (counters : OrdinalCounters) (scope other : String) (number : Int) :
    (counters.set scope number).last other = if other = scope then number
      else counters.last other := by
  unfold last
  rw [set_eq_put, Association.lookup_put]
  split <;> rfl

/-- The numbers given out last are below the greatest, and none is negative. -/
def Below (counters : OrdinalCounters) : Prop :=
  ∀ scope, 0 ≤ counters.last scope ∧ counters.last scope < greatestNumber

theorem below_nil : Below [] := fun _ ↦ ⟨le_rfl, greatestNumber_pos⟩

theorem Below.next_pos (h : counters.Below) (scope : String) {floor : Int}
    (hfloor : floor < greatestNumber) :
    0 < counters.next scope floor ∧ counters.next scope floor ≤ greatestNumber := by
  obtain ⟨hlast, hbelow⟩ := h scope
  unfold next
  unfold greatestNumber at hbelow hfloor ⊢
  rw [Int.bmod_eq_of_le (by omega) (by omega)]
  omega

theorem Below.advance (h : counters.Below) {scope : String} {floor : Int}
    (hpositive : 0 < counters.next scope floor)
    (hnext : counters.next scope floor < greatestNumber) :
    (counters.advance scope floor).Below := by
  intro other
  unfold OrdinalCounters.advance
  rw [last_set]
  split
  · exact ⟨le_of_lt hpositive, hnext⟩
  · exact h other

end OrdinalCounters

/-! ## Items of owned collections -/

/-- An item of a collection that a navigation holds, or that an entity in it owns, with its type. -/
inductive OwnedItem : Navigation EntityType → Value → EntityType → Entity → Prop
  | item {n : Navigation EntityType} {value : Value} {items : List Value} {o : Entity}
      (hitems : value.elements? = some items) (ho : o.toValue ∈ items) :
      OwnedItem n value n.target o
  | inside {n m : Navigation EntityType} {value : Value} {o x : Entity} {t : EntityType}
      (ho : o ∈ value.owned) (hm : m ∈ n.target.navigations)
      (h : OwnedItem m (o.value m.name) t x) : OwnedItem n value t x

namespace OwnedItem

variable {n : Navigation EntityType} {value other : Value} {t : EntityType} {o x : Entity}

theorem not_isPlain (h : OwnedItem n value t o) : ¬value.IsPlain := by
  rintro ⟨hentity, helements⟩
  cases h with
  | item hitems _ =>
    rw [helements] at hitems
    cases hitems
  | inside ho _ _ =>
    cases value with
    | entity => cases hentity
    | collection => cases helements
    | _ => cases ho

/-- Every item is there in a completion, completed. -/
theorem completed (h : OwnedItem n value t o) (hcompletes : Completes value other) :
    ∃ x, OwnedItem n other t x ∧ Completes o.toValue x.toValue := by
  induction h generalizing other with
  | item hitems ho =>
    obtain ⟨others, hothers, hall⟩ := hcompletes.elements hitems
    obtain ⟨x, hx, hitem⟩ := Value.exists_completed hall ho
    exact ⟨x, .item hothers hx, hitem⟩
  | @inside n m value o x t ho hm h ih =>
    obtain ⟨f, hf, howner⟩ := Outcome.exists_right hcompletes.owned ho
    obtain ⟨_, hsame, hmember⟩ := howner.member (e := o) rfl
    cases hsame
    rcases hmember m.name with hvalue | ⟨hmissing, -⟩
    · obtain ⟨y, hy, hitem⟩ := ih hvalue
      exact ⟨y, .inside hf hm hy, hitem⟩
    · exact absurd (Value.isPlain_of_isDefault hmissing) h.not_isPlain

/-- A completion has no items but completed ones. -/
theorem of_completed (h : OwnedItem n other t x) (hcompletes : Completes value other) :
    ∃ o, OwnedItem n value t o ∧ Completes o.toValue x.toValue := by
  induction h generalizing value with
  | item hothers hx =>
    have hsome := hcompletes.elements?_isSome
    rw [hothers] at hsome
    obtain ⟨items, hitems⟩ := Option.isSome_iff_exists.1 hsome.symm
    obtain ⟨_, hsame, hall⟩ := hcompletes.elements hitems
    cases hothers.symm.trans hsame
    obtain ⟨o, ho, hitem⟩ := Value.exists_before hall hx
    exact ⟨o, .item hitems ho, hitem⟩
  | @inside n m other f x t hf hm h ih =>
    obtain ⟨o, ho, howner⟩ := Outcome.exists_left hcompletes.owned hf
    obtain ⟨_, hsame, hmember⟩ := howner.member (e := o) rfl
    cases hsame
    rcases hmember m.name with hvalue | ⟨-, hplain⟩
    · obtain ⟨y, hy, hitem⟩ := ih hvalue
      exact ⟨y, .inside ho hm hy, hitem⟩
    · exact absurd hplain h.not_isPlain

end OwnedItem

/-- The entity has a number for each of its keys that is numbered. -/
def EntityType.HasNumbers (t : EntityType) (o : Entity) : Prop :=
  ∀ p ∈ t.ordinalKeys, (o.value p.name).isDefault = false

/-- The entity does not have the greatest number. -/
def EntityType.BelowGreatest (t : EntityType) (o : Entity) : Prop :=
  ∀ p ∈ t.ordinalKeys, (o.value p.name).integer? ≠ some greatestNumber

def Navigation.AllItems (n : Navigation EntityType) (P : EntityType → Entity → Prop)
    (value : Value) : Prop :=
  ∀ t o, OwnedItem n value t o → P t o

/-- All items of collections that an entity owns, at any depth, have a property. -/
def EntityType.AllItems (t : EntityType) (P : EntityType → Entity → Prop) (e : Entity) : Prop :=
  ∀ n ∈ t.navigations, n.AllItems P (e.value n.name)

open EntityType (HasNumbers BelowGreatest)

namespace Navigation

variable {n : Navigation EntityType} {P : EntityType → Entity → Prop} {value other : Value}

theorem allItems_of_isPlain (h : value.IsPlain) : n.AllItems P value :=
  fun _ _ ho ↦ absurd h ho.not_isPlain

theorem allItems_toValue {e : Entity} : n.AllItems P e.toValue ↔ n.target.AllItems P e := by
  constructor
  · exact fun h m hm t o ho ↦ h t o (.inside (List.mem_singleton_self _) hm ho)
  · rintro h t o (⟨hitems, -⟩ | ⟨ho, hm, hinside⟩)
    · cases hitems
    · cases List.mem_singleton.1 ho
      exact h _ hm t o hinside

theorem allItems_collection {container : Container} {items : List Value} :
    n.AllItems P (.collection container items) ↔
      ∀ o, Entity.toValue o ∈ items → P n.target o ∧ n.target.AllItems P o := by
  constructor
  · intro h o ho
    exact ⟨h _ _ (.item rfl ho), fun m hm t x hx ↦
      h t x (.inside (Value.mem_owned_collection.2 ho) hm hx)⟩
  · rintro h t o (⟨hitems, ho⟩ | ⟨ho, hm, hinside⟩)
    · cases hitems
      exact (h o ho).1
    · exact (h _ (Value.mem_owned_collection.1 ho)).2 _ hm t o hinside

end Navigation

/-! ## Completions of items -/

section Completions

variable {n : Navigation EntityType} {value other : Value} {t : EntityType} {e f : Entity}

theorem EntityType.HasNumbers.completed (h : t.HasNumbers e)
    (hcompletes : Completes e.toValue f.toValue) : t.HasNumbers f :=
  fun p hp ↦ hcompletes.isDefault_member (h p hp)

/-- The greatest number is not taken away again. -/
theorem integer?_of_completed (h : Completes e.toValue f.toValue) {member : String}
    (hgreatest : (f.value member).integer? ≠ some greatestNumber) :
    (e.value member).integer? ≠ some greatestNumber := by
  intro hvalue
  rw [h.value_member (Value.isDefault_of_integer? hvalue greatestNumber_pos.ne')
    (Value.isPlain_of_integer? hvalue)] at hgreatest
  exact hgreatest hvalue

theorem Navigation.AllItems.completed (h : n.AllItems HasNumbers value)
    (hcompletes : Completes value other) : n.AllItems HasNumbers other := by
  intro t x hx
  obtain ⟨o, ho, hitem⟩ := hx.of_completed hcompletes
  exact (h t o ho).completed hitem

theorem Navigation.AllItems.of_completed (h : n.AllItems BelowGreatest other)
    (hcompletes : Completes value other) : n.AllItems BelowGreatest value := by
  intro t o ho p hp
  obtain ⟨x, hx, hitem⟩ := ho.completed hcompletes
  exact integer?_of_completed hitem (h t x hx p hp)

theorem Navigation.AllItems.member_completed {member : String}
    (h : n.AllItems HasNumbers (e.value member)) (hcompletes : Completes e.toValue f.toValue) :
    n.AllItems HasNumbers (f.value member) := by
  obtain ⟨_, hf, hmember⟩ := hcompletes.member (e := e) rfl
  cases hf
  rcases hmember member with hvalue | ⟨-, hplain⟩
  · exact h.completed hvalue
  · exact allItems_of_isPlain hplain

theorem Navigation.AllItems.member_of_completed {member : String}
    (h : n.AllItems BelowGreatest (f.value member)) (hcompletes : Completes e.toValue f.toValue) :
    n.AllItems BelowGreatest (e.value member) := by
  obtain ⟨_, hf, hmember⟩ := hcompletes.member (e := e) rfl
  cases hf
  rcases hmember member with hvalue | ⟨hmissing, -⟩
  · exact h.of_completed hvalue
  · exact allItems_of_isPlain (Value.isPlain_of_isDefault hmissing)

end Completions

/-! ## Numbering -/

namespace Progress

variable {σ α β : Type}

theorem items_cons_done {work : Nat → α → σ → Progress σ α} {position : Nat} {item : α}
    {rest : List α} {state : σ} (hdone : (items work position (item :: rest) state).fault = none) :
    (work position item state).fault = none ∧ items work position (item :: rest) state =
      (items work (position + 1) rest (work position item state).state).map
        ((work position item state).value :: ·) := by
  rw [items] at hdone ⊢
  split at hdone
  · cases hdone
  · next hfirst =>
    rw [hfirst]
    exact ⟨rfl, rfl⟩

/-- Each item is related to what work makes of it, given what holds of the state, which work keeps,
and of the items in the end. -/
theorem items_ensures {work : Nat → α → σ → Progress σ α} {I : σ → Prop} {P : α → Prop}
    {r : α → α → Prop}
    (hwork : ∀ position item state, I state → (work position item state).fault = none →
      P (work position item state).value →
        r item (work position item state).value ∧ I (work position item state).state)
    {list : List α} {position : Nat} {state : σ} (hstate : I state)
    (hdone : (items work position list state).fault = none)
    (hlist : ∀ item ∈ (items work position list state).value, P item) :
    List.Forall₂ r list (items work position list state).value ∧
      I (items work position list state).state := by
  induction list generalizing position state with
  | nil => exact ⟨.nil, hstate⟩
  | cons item rest ih =>
    obtain ⟨hfirst, hitems⟩ := items_cons_done hdone
    rw [hitems] at hdone hlist ⊢
    obtain ⟨hitem, hlist⟩ := List.forall_mem_cons.1 hlist
    obtain ⟨hrelated, hnext⟩ := hwork position item state hstate hfirst hitem
    obtain ⟨hrest, hlast⟩ := ih hnext hdone hlist
    exact ⟨.cons hrelated hrest, hlast⟩

end Progress

namespace Property

variable {p : Property} {scope : String} {items : List Value} {counters : OrdinalCounters}

theorem ordinalFloor_lt
    (h : ∀ o, Entity.toValue o ∈ items → (o.value p.name).integer? ≠ some greatestNumber) :
    p.ordinalFloor items < greatestNumber := by
  unfold ordinalFloor
  cases hmax : (items.filterMap fun item ↦
      item.entity?.bind fun e ↦ (e.value p.name).integer?).max? with
  | none => exact greatestNumber_pos
  | some number =>
    obtain ⟨item, hitem, hnumber⟩ := List.mem_filterMap.1 (List.max?_mem hmax)
    obtain ⟨o, ho, hvalue⟩ := Option.bind_eq_some_iff.1 hnumber
    rw [Value.eq_toValue ho] at hitem
    refine lt_of_le_of_ne (Value.integer?_le hvalue) ?_
    rintro rfl
    exact h o hitem hvalue

/-- The item, if it is an entity, has a number. -/
def Numbers (p : Property) (item : Value) : Prop :=
  ∀ o, item.entity? = some o → (o.value p.name).isDefault = false

/-- The item, if it is an entity, does not have the greatest number. -/
def KeepsBelow (p : Property) (item : Value) : Prop :=
  ∀ o, item.entity? = some o → (o.value p.name).integer? ≠ some greatestNumber

/-- Items of a collection do not have the greatest number if no completed ones do. -/
theorem keepsBelow_of_completed {others : List Value} (h : List.Forall₂ Completes items others)
    (hbelow : ∀ o, Entity.toValue o ∈ others → (o.value p.name).integer? ≠ some greatestNumber) :
    ∀ item ∈ items, p.KeepsBelow item := by
  intro item hitem o ho
  rw [Value.eq_toValue ho] at hitem
  obtain ⟨f, hf, hcompletes⟩ := Value.exists_completed h hitem
  exact integer?_of_completed hcompletes (hbelow f hf)

/-- A number that is given out is not the greatest if that of the item is not. -/
theorem assignOrdinal_numbers {floor : Int} {item : Value} (hcounters : counters.Below)
    (hfloor : floor < greatestNumber)
    (hdone : (p.assignOrdinal scope floor item counters).fault = none)
    (hbelow : p.KeepsBelow (p.assignOrdinal scope floor item counters).value) :
    p.Numbers (p.assignOrdinal scope floor item counters).value ∧
      (p.assignOrdinal scope floor item counters).state.Below := by
  obtain ⟨hpositive, hle⟩ := hcounters.next_pos scope hfloor
  cases item with
  | entity type members =>
    unfold assignOrdinal at hdone hbelow ⊢
    dsimp only at hdone hbelow ⊢
    split
    · next hmissing =>
      rw [if_pos hmissing] at hdone hbelow
      cases hvalue : p.ordinalValue (counters.next scope floor) with
      | error fault =>
        rw [hvalue] at hdone
        cases hdone
      | ok value =>
        rw [hvalue] at hbelow
        have hnumber := ordinalValue_ok hvalue hpositive hle
        have hset : (Entity.set ⟨type, members⟩ p.name value).value p.name = value := by
          rw [Entity.value_set, if_pos rfl]
        have hgreatest := hbelow _ rfl
        rw [hset, hnumber, Option.some_inj.ne] at hgreatest
        refine ⟨fun o ho ↦ ?_, hcounters.advance hpositive (lt_of_le_of_ne hle hgreatest)⟩
        cases ho
        rw [hset]
        exact Value.isDefault_of_integer? hnumber hpositive.ne'
    · next hpresent =>
      refine ⟨fun o ho ↦ ?_, hcounters⟩
      cases ho
      exact Bool.eq_false_iff.2 hpresent
  | _ =>
    refine ⟨fun o ho ↦ ?_, hcounters⟩
    cases ho

/-- After a pass all items have numbers, above one that was not the greatest. -/
theorem numberItems_pass (hcounters : counters.Below)
    (hdone : (p.numberItems scope items counters).fault = none)
    (hbelow : ∀ item ∈ (p.numberItems scope items counters).value, p.KeepsBelow item) :
    p.ordinalFloor items < greatestNumber ∧
      (∀ item ∈ (p.numberItems scope items counters).value, p.Numbers item) ∧
      (p.numberItems scope items counters).state.Below := by
  have hitems := keepsBelow_of_completed (p.completes_pass scope items counters)
    fun o ho ↦ hbelow _ ho o rfl
  have hfloor : p.ordinalFloor items < greatestNumber := ordinalFloor_lt fun o ho ↦ hitems _ ho o rfl
  obtain ⟨hnumbered, hlast⟩ := Progress.items_ensures (I := OrdinalCounters.Below)
    (P := p.KeepsBelow) (r := fun _ ↦ p.Numbers)
    (fun _ _ _ hcounters ↦ assignOrdinal_numbers hcounters hfloor) hcounters hdone hbelow
  refine ⟨hfloor, fun item hitem ↦ ?_, hlast⟩
  obtain ⟨_, -, hnumbers⟩ := Outcome.exists_left hnumbered hitem
  exact hnumbers

/-- After a pass for each of some properties all items have numbers for them. -/
theorem numberItems_numbers {properties : List Property} (hcounters : counters.Below)
    (hdone : (Progress.steps (numberItems scope) properties items counters).fault = none)
    (hbelow : ∀ p ∈ properties, ∀ o, Entity.toValue o ∈
      (Progress.steps (numberItems scope) properties items counters).value →
        (o.value p.name).integer? ≠ some greatestNumber) :
    (∀ p ∈ properties, ∀ o, Entity.toValue o ∈
      (Progress.steps (numberItems scope) properties items counters).value →
        (o.value p.name).isDefault = false) ∧
      (Progress.steps (numberItems scope) properties items counters).state.Below := by
  induction properties generalizing items counters with
  | nil => exact ⟨by simp, hcounters⟩
  | cons p rest ih =>
    rw [Progress.steps] at hdone hbelow ⊢
    obtain ⟨hfirst, hnext⟩ := Progress.andThen_done hdone
    rw [hnext] at hdone hbelow ⊢
    obtain ⟨hp, hbelow⟩ := List.forall_mem_cons.1 hbelow
    have hlater := (completes_numberItems scope rest (p.numberItems scope items counters).value
      (p.numberItems scope items counters).state .list).items
    obtain ⟨-, hnumbered, hmiddle⟩ :=
      numberItems_pass hcounters hfirst (keepsBelow_of_completed hlater hp)
    obtain ⟨hothers, hlast⟩ := ih hmiddle hdone hbelow
    refine ⟨List.forall_mem_cons.2 ⟨fun x hx ↦ ?_, hothers⟩, hlast⟩
    obtain ⟨o, ho, hitem⟩ := Value.exists_before hlater hx
    exact hitem.isDefault_member (hnumbered _ ho o rfl)

end Property

namespace EntityType

/-- After numbering, all items of an entity have their numbers. -/
def Numbers (t : EntityType) : Prop :=
  ∀ scope e counters, OrdinalCounters.Below counters →
    (t.assignOrdinals scope e counters).fault = none →
    t.AllItems BelowGreatest (t.assignOrdinals scope e counters).value →
      t.AllItems HasNumbers (t.assignOrdinals scope e counters).value ∧
        (t.assignOrdinals scope e counters).state.Below

section Walk

variable {t : EntityType} {n : Navigation EntityType} {scope : String} {counters : OrdinalCounters}

theorem assignOwned_numbers (h : t.Numbers) {position : Nat} {item : Value}
    (hcounters : counters.Below)
    (hdone : (t.assignOwned scope position item counters).fault = none)
    (hbelow : ∀ o, (t.assignOwned scope position item counters).value.entity? = some o →
      t.AllItems BelowGreatest o) :
    (∀ o, (t.assignOwned scope position item counters).value.entity? = some o →
      t.AllItems HasNumbers o) ∧
      (t.assignOwned scope position item counters).state.Below := by
  cases item with
  | entity type members =>
    obtain ⟨hnumbered, hlast⟩ := h _ ⟨type, members⟩ counters hcounters hdone (hbelow _ rfl)
    refine ⟨fun o ho ↦ ?_, hlast⟩
    cases ho
    exact hnumbered
  | _ =>
    refine ⟨fun o ho ↦ ?_, hcounters⟩
    cases ho

theorem completes_assignItems (items : List Value) :
    List.Forall₂ Completes items (Progress.items (t.assignOwned scope) 0 items counters).value :=
  Progress.rel_items .refl (completes_assignOwned t.completes_assignOrdinals scope) 0 items counters

/-- No item has the greatest number before those that they own are numbered, as none has it then. -/
theorem below_of_assignOwned {items : List Value}
    (hbelow : ∀ o, Entity.toValue o ∈
      (Progress.items (t.assignOwned scope) 0 items counters).value → t.BelowGreatest o) :
    ∀ p ∈ t.ordinalKeys, ∀ o, Entity.toValue o ∈ items →
      (o.value p.name).integer? ≠ some greatestNumber := fun p hp o ho ↦
  Property.keepsBelow_of_completed (completes_assignItems items) (fun x hx ↦ hbelow x hx p hp) _ ho o
    rfl

theorem assignCollection_numbers (h : t.Numbers) {items : List Value} (hcounters : counters.Below)
    (hdone : (t.assignCollection scope items counters).fault = none)
    (hbelow : ∀ o, Entity.toValue o ∈ (t.assignCollection scope items counters).value →
      t.BelowGreatest o ∧ t.AllItems BelowGreatest o) :
    (∀ o, Entity.toValue o ∈ (t.assignCollection scope items counters).value →
      t.HasNumbers o ∧ t.AllItems HasNumbers o) ∧
      (t.assignCollection scope items counters).state.Below := by
  unfold assignCollection at hdone hbelow ⊢
  obtain ⟨hfirst, hnext⟩ := Progress.andThen_done hdone
  rw [hnext] at hdone hbelow ⊢
  rw [assignItems_eq] at hfirst hdone hbelow ⊢
  -- the items have their numbers before those that they own have any
  obtain ⟨hnumbers, hcounters⟩ := Property.numberItems_numbers hcounters hfirst
    (below_of_assignOwned fun o ho ↦ (hbelow o ho).1)
  obtain ⟨hinside, hlast⟩ := Progress.items_ensures (I := OrdinalCounters.Below)
    (P := fun item ↦ ∀ o, item.entity? = some o → t.AllItems BelowGreatest o)
    (r := fun _ item ↦ ∀ o, item.entity? = some o → t.AllItems HasNumbers o)
    (fun _ _ _ ↦ assignOwned_numbers h) hcounters hdone fun item hitem o ho ↦
      (hbelow o (Value.eq_toValue ho ▸ hitem)).2
  refine ⟨fun x hx ↦ ?_, hlast⟩
  obtain ⟨o, ho, hitem⟩ := Value.exists_before (completes_assignItems _) hx
  obtain ⟨_, -, hitems⟩ := Outcome.exists_left hinside hx
  exact ⟨HasNumbers.completed (fun p hp ↦ hnumbers p hp o ho) hitem, hitems x rfl⟩

theorem assignNavigation_numbers (h : n.target.Numbers) {value : Value}
    (hcounters : counters.Below) (hdone : (assignNavigation scope n value counters).fault = none)
    (hbelow : n.AllItems BelowGreatest (assignNavigation scope n value counters).value) :
    n.AllItems HasNumbers (assignNavigation scope n value counters).value ∧
      (assignNavigation scope n value counters).state.Below := by
  cases value with
  | entity type members =>
    have hentity := assignNavigation_entity scope n counters ⟨type, members⟩
    rw [Entity.toValue] at hentity
    rw [hentity] at hdone hbelow ⊢
    obtain ⟨hnumbered, hlast⟩ := h _ _ _ hcounters hdone (Navigation.allItems_toValue.1 hbelow)
    exact ⟨Navigation.allItems_toValue.2 hnumbered, hlast⟩
  | collection container items =>
    rw [assignNavigation_collection] at hdone hbelow ⊢
    obtain ⟨hnumbered, hlast⟩ :=
      assignCollection_numbers h hcounters hdone (Navigation.allItems_collection.1 hbelow)
    exact ⟨Navigation.allItems_collection.2 hnumbered, hlast⟩
  | _ =>
    rw [assignNavigation_plain ⟨rfl, rfl⟩]
    exact ⟨Navigation.allItems_of_isPlain ⟨rfl, rfl⟩, hcounters⟩

theorem assignMember_numbers (h : n.target.Numbers) {e : Entity} (hcounters : counters.Below)
    (hdone : (assignMember scope n e counters).fault = none)
    (hbelow : n.AllItems BelowGreatest ((assignMember scope n e counters).value.value n.name)) :
    n.AllItems HasNumbers ((assignMember scope n e counters).value.value n.name) ∧
      (assignMember scope n e counters).state.Below := by
  unfold assignMember at hdone hbelow ⊢
  cases hvalue : e.get? n.name with
  | some value =>
    rw [hvalue] at hdone hbelow
    unfold Progress.map at hdone hbelow ⊢
    dsimp only at hdone hbelow ⊢
    rw [Entity.value_set, if_pos rfl] at hbelow ⊢
    exact assignNavigation_numbers h hcounters hdone hbelow
  | none =>
    refine ⟨?_, hcounters⟩
    dsimp only [Progress.done]
    rw [Entity.value, hvalue]
    exact Navigation.allItems_of_isPlain ⟨rfl, rfl⟩

theorem assignNavigations_numbers {navigations : List (Navigation EntityType)}
    (h : ∀ n ∈ navigations, n.target.Numbers) {e : Entity} (hcounters : counters.Below)
    (hdone : (assignNavigations scope navigations e counters).fault = none)
    (hbelow : ∀ n ∈ navigations, n.AllItems BelowGreatest
      ((assignNavigations scope navigations e counters).value.value n.name)) :
    (∀ n ∈ navigations, n.AllItems HasNumbers
      ((assignNavigations scope navigations e counters).value.value n.name)) ∧
      (assignNavigations scope navigations e counters).state.Below := by
  induction navigations generalizing e counters with
  | nil =>
    rw [assignNavigations]
    exact ⟨by simp, hcounters⟩
  | cons n rest ih =>
    obtain ⟨hn, hrest⟩ := List.forall_mem_cons.1 h
    rw [assignNavigations_cons] at hdone hbelow ⊢
    obtain ⟨hfirst, hnext⟩ := Progress.andThen_done hdone
    rw [hnext] at hdone hbelow ⊢
    obtain ⟨hbelowFirst, hbelow⟩ := List.forall_mem_cons.1 hbelow
    have hlater : Completes (assignMember scope n e counters).value.toValue
        (assignNavigations scope rest (assignMember scope n e counters).value
          (assignMember scope n e counters).state).value.toValue :=
      completes_assignNavigations (fun n _ ↦ n.target.completes_assignOrdinals) scope _ _
    obtain ⟨hnumbered, hmiddle⟩ :=
      assignMember_numbers hn hcounters hfirst (hbelowFirst.member_of_completed hlater)
    obtain ⟨hothers, hlast⟩ := ih hrest hmiddle hdone hbelow
    exact ⟨List.forall_mem_cons.2 ⟨hnumbered.member_completed hlater, hothers⟩, hlast⟩

end Walk

theorem numbers (t : EntityType) : t.Numbers := by
  induction t using owned_induction with
  | h t ih =>
    intro scope e counters hcounters hdone hbelow
    rw [assignOrdinals_eq] at hdone hbelow ⊢
    exact assignNavigations_numbers ih hcounters hdone hbelow

end EntityType

/-! ## Numbering again -/

namespace Progress

variable {σ α β : Type}

theorem steps_done {step : β → α → σ → Progress σ α} {instructions : List β} {value : α}
    {state : σ} (h : ∀ b ∈ instructions, step b value state = done value state) :
    steps step instructions value state = done value state := by
  induction instructions with
  | nil => rfl
  | cons b rest ih =>
    obtain ⟨hb, hrest⟩ := List.forall_mem_cons.1 h
    rw [steps, hb]
    exact ih hrest

theorem items_done {work : Nat → α → σ → Progress σ α} {list : List α} {state : σ}
    (h : ∀ item ∈ list, ∀ position, work position item state = done item state) (position : Nat) :
    items work position list state = done list state := by
  induction list generalizing position with
  | nil => rfl
  | cons item rest ih =>
    obtain ⟨hitem, hrest⟩ := List.forall_mem_cons.1 h
    have hlater := ih hrest (position + 1)
    rw [items, hitem]
    change map (item :: ·) (items work (position + 1) rest state) = _
    rw [hlater]
    rfl

end Progress

theorem Property.assignOrdinal_done {p : Property} {item : Value} (h : p.Numbers item)
    (scope : String) (floor : Int) (counters : OrdinalCounters) :
    p.assignOrdinal scope floor item counters = .done item counters := by
  cases item with
  | entity type members =>
    have hpresent := h ⟨type, members⟩ rfl
    unfold assignOrdinal
    dsimp only
    rw [if_neg (by simp [hpresent])]
  | _ => rfl

namespace EntityType

/-- Where all items have their numbers, nothing is numbered. -/
def KeepsNumbered (t : EntityType) : Prop :=
  ∀ scope e counters, e.toValue.Sorted → t.AllItems HasNumbers e →
    t.assignOrdinals scope e counters = .done e counters

section Walk

variable {t : EntityType} {n : Navigation EntityType}

theorem assignCollection_done (h : t.KeepsNumbered) {items : List Value}
    (hsorted : Value.SortedItems items)
    (hnumbered : ∀ o, Entity.toValue o ∈ items → t.HasNumbers o ∧ t.AllItems HasNumbers o)
    (scope : String) (counters : OrdinalCounters) :
    t.assignCollection scope items counters = .done items counters := by
  have hitems : t.assignItems scope items counters = .done items counters := by
    refine Progress.steps_done fun p hp ↦ Progress.items_done (fun item hitem _ ↦ ?_) 0
    refine p.assignOrdinal_done (fun o ho ↦ ?_) scope _ counters
    rw [Value.eq_toValue ho] at hitem
    exact (hnumbered o hitem).1 p hp
  unfold assignCollection
  rw [hitems]
  refine Progress.items_done (fun item hitem position ↦ ?_) 0
  have hitemSorted := Value.sortedItems_iff.1 hsorted item hitem
  cases item with
  | entity type members =>
    have hdone := h (scope ++ "/" ++ toString position) ⟨type, members⟩ counters hitemSorted
      (hnumbered ⟨type, members⟩ hitem).2
    exact congrArg (Progress.map Entity.toValue) hdone
  | _ => rfl

theorem assignNavigation_done (h : n.target.KeepsNumbered) {value : Value}
    (hsorted : value.Sorted) (hnumbered : n.AllItems HasNumbers value) (scope : String)
    (counters : OrdinalCounters) :
    assignNavigation scope n value counters = .done value counters := by
  cases value with
  | entity type members =>
    have hdone := h (scope ++ "/" ++ n.element) ⟨type, members⟩ counters hsorted
      (Navigation.allItems_toValue.1 hnumbered)
    exact (assignNavigation_entity scope n counters ⟨type, members⟩).trans
      (congrArg (Progress.map Entity.toValue) hdone)
  | collection container items =>
    rw [assignNavigation_collection,
      assignCollection_done h hsorted (Navigation.allItems_collection.1 hnumbered)]
    rfl
  | _ => exact assignNavigation_plain ⟨rfl, rfl⟩ counters

theorem assignMember_done (h : n.target.KeepsNumbered) {e : Entity} (hsorted : e.toValue.Sorted)
    (hnumbered : n.AllItems HasNumbers (e.value n.name)) (scope : String)
    (counters : OrdinalCounters) : assignMember scope n e counters = .done e counters := by
  have hmember : (e.value n.name).Sorted := Entity.DeepSorted.value hsorted n.name
  unfold assignMember
  split
  · next value hvalue =>
    have heq : e.value n.name = value := by
      rw [Entity.value, hvalue]
      rfl
    have hset : e.set n.name value = e := by
      refine (hsorted.1.set n.name value).ext hsorted.1 rfl fun member ↦ ?_
      rw [Entity.get?_set]
      split
      · next hname => rw [hname, hvalue]
      · rfl
    rw [heq] at hnumbered hmember
    rw [assignNavigation_done h hmember hnumbered]
    exact congrArg (Progress.done · counters) hset
  · rfl

end Walk

theorem keepsNumbered (t : EntityType) : t.KeepsNumbered := by
  induction t using owned_induction with
  | h t ih =>
    intro scope e counters hsorted hnumbered
    rw [assignOrdinals_eq]
    unfold AllItems at hnumbered
    generalize t.navigations = navigations at ih hnumbered
    induction navigations with
    | nil => rw [assignNavigations]
    | cons n rest ihrest =>
      obtain ⟨hn, hrest⟩ := List.forall_mem_cons.1 ih
      obtain ⟨hnumberedFirst, hnumbered⟩ := List.forall_mem_cons.1 hnumbered
      rw [assignNavigations_cons, assignMember_done hn hsorted hnumberedFirst]
      exact ihrest hrest hnumbered

end EntityType

end DocMapping
