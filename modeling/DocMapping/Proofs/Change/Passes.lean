import DocMapping.Proofs.Change.Places

/-!
# What Passes Make of Collections

A pass gives rising numbers to the items of a collection that have none, above all that it holds.
Several passes, at any depth of a value, leave each collection in its place, and for each member of
its items there was at most one of them that gave numbers: the first one gave all.
-/

namespace DocMapping

open Value (Completes Numbered)

/-! ## The numbers of one collection -/

namespace Value

/-- What a member of an entity has become that had no value before. -/
def givenTo (member : String) (item other : Value) : Option Value :=
  item.entity?.bind fun o ↦ other.entity?.bind fun f ↦
    if (o.value member).isDefault then some (f.value member) else none

/-- The values of a member that items were given, in their order. -/
def given (member : String) (items others : List Value) : List Value :=
  (items.zip others).filterMap fun pair ↦ givenTo member pair.1 pair.2

/-- The items have numbers for a member.  Those given rise and are above all that there were. -/
structure Raised (member : String) (items others : List Value) : Prop where
  complete : ∀ f, Entity.toValue f ∈ others → (f.value member).isDefault = false
  rising : ∃ numbers : List Int, (given member items others).map integer? = numbers.map some ∧
    numbers.Pairwise (· < ·) ∧ ∀ number ∈ numbers, 0 < number ∧
      ∀ o, Entity.toValue o ∈ items → ∀ held, (o.value member).integer? = some held → held < number

/-- No number is given for a member. -/
def Untouched (member : String) (items others : List Value) : Prop :=
  ∀ value ∈ given member items others, value.isDefault = true

/-- What passes make of a collection: for each member, either no number is given or all of the items
that have none get one. -/
structure Passed (items others : List Value) : Prop where
  completes : List.Forall₂ Completes items others
  numbers : ∀ member, Untouched member items others ∨ Raised member items others

variable {member : String} {items middle others : List Value}

theorem givenTo_eq_some {item other value : Value} :
    givenTo member item other = some value ↔ ∃ o f : Entity, item = o.toValue ∧
      other = f.toValue ∧ (o.value member).isDefault = true ∧ f.value member = value := by
  unfold givenTo
  rw [Option.bind_eq_some_iff]
  constructor
  · rintro ⟨o, ho, h⟩
    obtain ⟨f, hf, h⟩ := Option.bind_eq_some_iff.1 h
    obtain ⟨hmissing, h⟩ := Option.ite_none_right_eq_some.1 h
    exact ⟨o, f, eq_toValue ho, eq_toValue hf, hmissing, Option.some_inj.1 h⟩
  · rintro ⟨o, f, rfl, rfl, hmissing, rfl⟩
    exact ⟨o, rfl, Option.bind_eq_some_iff.2 ⟨f, rfl, if_pos hmissing⟩⟩

theorem isDefault_of_givenTo_self {item value : Value} (h : givenTo member item item = some value) :
    value.isDefault = true := by
  obtain ⟨o, f, hitem, hother, hmissing, rfl⟩ := givenTo_eq_some.1 h
  obtain rfl : o = f := Entity.toValue_inj (hitem.symm.trans hother)
  exact hmissing

theorem given_cons (member : String) (item other : Value) (items others : List Value) :
    given member (item :: items) (other :: others) =
      (givenTo member item other).toList ++ given member items others := by
  unfold given
  rw [List.zip_cons_cons, List.filterMap_cons]
  cases givenTo member item other <;> rfl

/-- No number is given in a pair of lists if none is given in any of the pairs. -/
theorem untouched_of_forall₂ (h : List.Forall₂ (fun item other ↦ ∀ value,
    givenTo member item other = some value → value.isDefault = true) items others) :
    Untouched member items others := by
  induction h with
  | nil =>
    intro value hvalue
    cases hvalue
  | cons hitem _ ih =>
    intro value hvalue
    rw [given_cons, List.mem_append, Option.mem_toList] at hvalue
    exact hvalue.elim (hitem value) (ih value)

/-- An item that is not touched between is given the same. -/
theorem givenTo_eq_of_untouched {item between other : Value} (h : Completes item between)
    (huntouched : ∀ value, givenTo member item between = some value → value.isDefault = true) :
    givenTo member item other = givenTo member between other := by
  apply Option.ext
  intro value
  rw [givenTo_eq_some, givenTo_eq_some]
  constructor
  · rintro ⟨o, f, rfl, rfl, hmissing, rfl⟩
    obtain ⟨m, hm, -⟩ := h.member (e := o) rfl
    obtain rfl := eq_toValue hm
    exact ⟨m, f, rfl, rfl, huntouched _ (givenTo_eq_some.2 ⟨o, m, rfl, rfl, hmissing, rfl⟩), rfl⟩
  · rintro ⟨m, f, rfl, rfl, hmissing, rfl⟩
    obtain ⟨o, ho⟩ := Option.isSome_iff_exists.1 h.entity?_isSome.symm
    obtain rfl := eq_toValue ho
    refine ⟨o, f, rfl, rfl, Bool.eq_true_of_not_eq_false fun hvalue ↦ ?_, rfl⟩
    exact absurd (h.isDefault_member hvalue) (by simp [hmissing])

/-- A number that was given is not given again. -/
theorem givenTo_eq_of_complete {item between other : Value} (h : Completes between other)
    (hcomplete : ∀ value, givenTo member item between = some value →
      value.isDefault = false ∧ value.IsPlain) :
    givenTo member item other = givenTo member item between := by
  have hkept {o m f : Entity} (hitem : item = o.toValue) (hbetween : between = m.toValue)
      (hother : other = f.toValue) (hmissing : (o.value member).isDefault = true) :
      f.value member = m.value member := by
    have hgiven := givenTo_eq_some.2 ⟨o, m, hitem, hbetween, hmissing, rfl⟩
    obtain ⟨hvalue, hplain⟩ := hcomplete _ hgiven
    rw [hbetween, hother] at h
    exact h.value_member hvalue hplain
  apply Option.ext
  intro value
  rw [givenTo_eq_some, givenTo_eq_some]
  constructor
  · rintro ⟨o, f, hitem, hother, hmissing, rfl⟩
    obtain ⟨m, hm⟩ := Option.isSome_iff_exists.1 (h.entity?_isSome.symm.trans (by rw [hother]; rfl))
    exact ⟨o, m, hitem, eq_toValue hm, hmissing, (hkept hitem (eq_toValue hm) hother hmissing).symm⟩
  · rintro ⟨o, m, hitem, hbetween, hmissing, rfl⟩
    obtain ⟨f, hf, -⟩ := h.member (e := m) (by rw [hbetween]; rfl)
    exact ⟨o, f, hitem, eq_toValue hf, hmissing, hkept hitem hbetween (eq_toValue hf) hmissing⟩

theorem given_eq_of_untouched (h : List.Forall₂ Completes items middle)
    (huntouched : Untouched member items middle) (others : List Value) :
    given member items others = given member middle others := by
  induction h generalizing others with
  | nil => rfl
  | @cons item between rest middle hitem _ ih =>
    cases others with
    | nil => rfl
    | cons other others =>
      unfold Untouched at huntouched
      rw [given_cons] at huntouched
      rw [given_cons, given_cons, givenTo_eq_of_untouched hitem fun value hvalue ↦ huntouched value
        (List.mem_append_left _ (Option.mem_toList.2 hvalue))]
      rw [ih (fun value hvalue ↦ huntouched value (List.mem_append_right _ hvalue))]

theorem given_eq_of_complete (h : List.Forall₂ Completes middle others)
    (hcomplete : ∀ value ∈ given member items middle, value.isDefault = false ∧ value.IsPlain) :
    given member items others = given member items middle := by
  induction h generalizing items with
  | nil => rfl
  | @cons between other middle others hitem _ ih =>
    cases items with
    | nil => rfl
    | cons item items =>
      rw [given_cons] at hcomplete
      rw [given_cons, given_cons, givenTo_eq_of_complete hitem fun value hvalue ↦ hcomplete value
        (List.mem_append_left _ (Option.mem_toList.2 hvalue))]
      rw [ih (fun value hvalue ↦ hcomplete value (List.mem_append_right _ hvalue))]

/-- A number that is held before is held after, or is the default one. -/
theorem held_of_completes (h : List.Forall₂ Completes items middle) {o : Entity}
    (ho : o.toValue ∈ items) {held : Int} (hheld : (o.value member).integer? = some held) :
    held = 0 ∨ ∃ m, Entity.toValue m ∈ middle ∧ (m.value member).integer? = some held := by
  by_cases hzero : held = 0
  · exact .inl hzero
  · obtain ⟨m, hm, hitem⟩ := exists_completed h ho
    have hvalue := hitem.value_member (isDefault_of_integer? hheld hzero)
      (isPlain_of_integer? hheld)
    exact .inr ⟨m, hm, hvalue ▸ hheld⟩

theorem complete_of_completes (h : List.Forall₂ Completes middle others)
    (hcomplete : ∀ m, Entity.toValue m ∈ middle → (m.value member).isDefault = false) {f : Entity}
    (hf : f.toValue ∈ others) : (f.value member).isDefault = false := by
  obtain ⟨m, hm, hitem⟩ := exists_before h hf
  exact hitem.isDefault_member (hcomplete m hm)

namespace Passed

theorem refl (items : List Value) : Passed items items where
  completes := List.forall₂_same.2 fun _ _ ↦ .refl _
  numbers member := by
    have hself : List.Forall₂ (fun item other ↦ ∀ value,
        givenTo member item other = some value → value.isDefault = true) items items :=
      List.forall₂_same.2 fun _ _ _ ↦ isDefault_of_givenTo_self
    exact .inl (untouched_of_forall₂ hself)

theorem trans (h : Passed items middle) (hnext : Passed middle others) : Passed items others where
  completes :=
    ((Completes.of_items h.completes .list).trans (.of_items hnext.completes .list)).items
  numbers member := by
    rcases h.numbers member with huntouched | hraised
    -- only the later passes may have given numbers
    · have hgiven := given_eq_of_untouched h.completes huntouched others
      rcases hnext.numbers member with hlater | hlater
      · left
        unfold Untouched
        rw [hgiven]
        exact hlater
      · right
        obtain ⟨numbers, hnumbers, hrising, habove⟩ := hlater.rising
        refine ⟨hlater.complete, numbers, hgiven ▸ hnumbers, hrising, fun number hnumber ↦ ?_⟩
        obtain ⟨hpositive, hheld⟩ := habove number hnumber
        refine ⟨hpositive, fun o ho held hvalue ↦ ?_⟩
        rcases held_of_completes h.completes ho hvalue with rfl | ⟨m, hm, hvalue⟩
        · exact hpositive
        · exact hheld m hm held hvalue
    -- all items have numbers, which later passes keep
    · right
      obtain ⟨numbers, hnumbers, hrising, habove⟩ := hraised.rising
      have hgiven : given member items others = given member items middle := by
        refine given_eq_of_complete hnext.completes fun value hvalue ↦ ?_
        have hmem := List.mem_map_of_mem (f := integer?) hvalue
        rw [hnumbers] at hmem
        obtain ⟨number, hnumber, hvalue⟩ := List.mem_map.1 hmem
        exact ⟨isDefault_of_integer? hvalue.symm (habove number hnumber).1.ne',
          isPlain_of_integer? hvalue.symm⟩
      exact ⟨fun f hf ↦ complete_of_completes hnext.completes hraised.complete hf, numbers,
        hgiven ▸ hnumbers, hrising, habove⟩

end Passed

end Value

/-! ## The numbers of one pass -/

namespace Property

open Value (given givenTo Raised Untouched Passed)

variable {p : Property} {items others : List Value}

theorem le_ordinalFloor {o : Entity} (ho : o.toValue ∈ items) {held : Int}
    (hheld : (o.value p.name).integer? = some held) : held ≤ p.ordinalFloor items := by
  have hmem : held ∈ items.filterMap fun item ↦
      item.entity?.bind fun e ↦ (e.value p.name).integer? :=
    List.mem_filterMap.2 ⟨o.toValue, ho, hheld⟩
  unfold ordinalFloor
  generalize (items.filterMap fun item ↦
    item.entity?.bind fun e ↦ (e.value p.name).integer?) = numbers at hmem ⊢
  cases hmax : numbers.max? with
  | none =>
    rw [List.max?_eq_none_iff.1 hmax] at hmem
    cases hmem
  | some greatest => exact (List.max?_eq_some_iff.1 hmax).2 held hmem

namespace Rises

variable {last : Int}

/-- An item stays, or has a number in place of none. -/
theorem cases_item (h : p.Rises last items others) :
    List.Forall₂ (fun item other ↦ other = item ∨ ∃ (o : Entity) (value : Value),
      item = o.toValue ∧ (o.value p.name).isDefault = true ∧
        other = (o.set p.name value).toValue) items others := by
  induction h with
  | nil => exact .nil
  | keep _ _ ih => exact .cons (.inl rfl) ih
  | give hmissing _ _ _ ih => exact .cons (.inr ⟨_, _, rfl, hmissing, rfl⟩) ih

theorem complete (h : p.Rises last items others) (hlast : 0 ≤ last) {f : Entity}
    (hf : f.toValue ∈ others) : (f.value p.name).isDefault = false := by
  induction h with
  | nil => cases hf
  | keep hitem _ ih =>
    rcases List.mem_cons.1 hf with heq | hf
    · exact hitem f (by rw [← heq]; rfl)
    · exact ih hlast hf
  | @give last number o value _ _ _ hvalue hnumber _ ih =>
    rcases List.mem_cons.1 hf with heq | hf
    · obtain rfl : f = o.set p.name value := Entity.toValue_inj heq
      rw [Entity.value_set, if_pos rfl]
      exact Value.isDefault_of_integer? hvalue (by omega)
    · exact ih (by omega) hf

/-- The numbers that are given rise from the last one on. -/
theorem rising (h : p.Rises last items others) : ∃ numbers : List Int,
    (given p.name items others).map Value.integer? = numbers.map some ∧
      (last :: numbers).Pairwise (· < ·) := by
  induction h with
  | nil last => exact ⟨[], rfl, List.pairwise_singleton _ _⟩
  | @keep last item items others hitem _ ih =>
    obtain ⟨numbers, hnumbers, hrising⟩ := ih
    refine ⟨numbers, ?_, hrising⟩
    have hnone : givenTo p.name item item = none := by
      refine Option.eq_none_iff_forall_ne_some.2 fun value hvalue ↦ ?_
      obtain ⟨o, f, rfl, -, hmissing, -⟩ := Value.givenTo_eq_some.1 hvalue
      exact absurd (hitem o rfl) (by simp [hmissing])
    rw [Value.given_cons, hnone]
    exact hnumbers
  | @give last number o value items others hmissing hvalue hlast _ ih =>
    obtain ⟨numbers, hnumbers, hrising⟩ := ih
    refine ⟨number :: numbers, ?_, List.pairwise_cons.2 ⟨?_, hrising⟩⟩
    · have hgiven : givenTo p.name o.toValue (o.set p.name value).toValue = some value :=
        Value.givenTo_eq_some.2 ⟨o, _, rfl, rfl, hmissing, by rw [Entity.value_set, if_pos rfl]⟩
      rw [Value.given_cons, hgiven, Option.toList_some, List.singleton_append, List.map_cons,
        List.map_cons, hvalue, hnumbers]
    · obtain ⟨hnumber, -⟩ := List.pairwise_cons.1 hrising
      exact List.forall_mem_cons.2 ⟨hlast, fun later hlater ↦ hlast.trans (hnumber later hlater)⟩

theorem passed (h : p.Rises last items others) (hlast : 0 ≤ last)
    (hheld : p.ordinalFloor items ≤ last) : Passed items others where
  completes := h.completes
  numbers member := by
    by_cases hmember : member = p.name
    · subst hmember
      right
      obtain ⟨numbers, hnumbers, hrising⟩ := h.rising
      obtain ⟨habove, hrising⟩ := List.pairwise_cons.1 hrising
      refine ⟨fun f hf ↦ h.complete hlast hf, numbers, hnumbers, hrising, fun number hnumber ↦ ?_⟩
      have hlt := habove number hnumber
      refine ⟨by omega, fun o ho held hvalue ↦ ?_⟩
      have hle := le_ordinalFloor ho hvalue
      omega
    · left
      refine Value.untouched_of_forall₂ (h.cases_item.imp fun item other hitem value hvalue ↦ ?_)
      rcases hitem with rfl | ⟨x, new, hx, -, hnew⟩
      · exact Value.isDefault_of_givenTo_self hvalue
      · obtain ⟨o, f, ho, hf, hmissing, rfl⟩ := Value.givenTo_eq_some.1 hvalue
        obtain rfl : o = x := Entity.toValue_inj (ho.symm.trans hx)
        obtain rfl : f = o.set p.name new := Entity.toValue_inj (hf.symm.trans hnew)
        rw [Entity.value_set, if_neg hmember]
        exact hmissing

end Rises

end Property

/-! ## The numbers of all collections -/

namespace Value

/-- Where the first value has a collection inside, the second has what passes make of it. -/
def PassedInside (value other : Value) : Prop :=
  ∀ place container items, value.at? place = some (collection container items) →
    ∃ others, other.at? place = some (collection container others) ∧ Passed items others

namespace PassedInside

theorem refl (value : Value) : PassedInside value value :=
  fun _ _ items hat ↦ ⟨items, hat, .refl items⟩

theorem trans {first second third : Value} (h : PassedInside first second)
    (hnext : PassedInside second third) : PassedInside first third := by
  intro place container items hat
  obtain ⟨middle, hmiddle, hpassed⟩ := h place container items hat
  obtain ⟨others, hothers, hlater⟩ := hnext place container middle hmiddle
  exact ⟨others, hothers, hpassed.trans hlater⟩

theorem set_missing {e : Entity} {member : String} (new : Value)
    (hmissing : (e.value member).isDefault = true) :
    PassedInside e.toValue (e.set member new).toValue :=
  fun _ _ items hat ↦ ⟨items, at?_set_missing new hmissing hat, .refl items⟩

theorem set_member {e : Entity} {member : String} {old new : Value}
    (hmember : e.get? member = some old) (h : PassedInside old new) :
    PassedInside e.toValue (e.set member new).toValue := by
  intro place container items hat
  obtain ⟨name, rest, inner, rfl, hname, hinner⟩ := at?_toValue hat
  by_cases heq : name = member
  · subst heq
    cases hmember.symm.trans hname
    obtain ⟨others, hothers, hpassed⟩ := h rest container items hinner
    have hset : (e.set name new).get? name = some new := by rw [Entity.get?_set, if_pos rfl]
    exact ⟨others, (at?_member hset).trans hothers, hpassed⟩
  · have hset : (e.set member new).get? name = some inner := by
      rw [Entity.get?_set, if_neg heq, hname]
    exact ⟨items, (at?_member hset).trans hinner, .refl items⟩

theorem getElem? {items others : List Value} (h : List.Forall₂ PassedInside items others)
    {index : Nat} {item : Value} (hitem : items[index]? = some item) :
    ∃ other, others[index]? = some other ∧ PassedInside item other := by
  induction h generalizing index with
  | nil => cases hitem
  | cons hfirst _ ih =>
    cases index with
    | zero =>
      cases hitem
      exact ⟨_, rfl, hfirst⟩
    | succ index => exact ih hitem

theorem of_items {items others : List Value} (hpassed : Passed items others)
    (h : List.Forall₂ PassedInside items others) (container : Container) :
    PassedInside (collection container items) (collection container others) := by
  intro place inner elements hat
  cases place with
  | nil =>
    cases hat
    exact ⟨others, rfl, hpassed⟩
  | cons step rest =>
    cases step with
    | member name => cases hat
    | position index =>
      obtain ⟨item, hitem, hat⟩ := Option.bind_eq_some_iff.1 hat
      obtain ⟨other, hother, hinside⟩ := getElem? h hitem
      obtain ⟨results, hresults, hlater⟩ := hinside rest inner elements hat
      refine ⟨results, ?_, hlater⟩
      exact Option.bind_eq_some_iff.2 ⟨other, hother, hresults⟩

end PassedInside

namespace Numbered

variable {t : EntityType} {value other : Value}

/-- An entity is not numbered itself, but what it owns. -/
theorem value_missing (h : Numbered t value other) {o f : Entity} (ho : value = o.toValue)
    (hf : other = f.toValue) {member : String} (hmissing : (o.value member).isDefault = true) :
    f.value member = o.value member := by
  induction h generalizing o f with
  | refl => rw [Entity.toValue_inj (hf.symm.trans ho)]
  | trans h _ ih ihnext =>
    obtain ⟨m, hm, -⟩ := h.completes.member (e := o) (by rw [ho]; rfl)
    have hfirst := ih ho (eq_toValue hm) hmissing
    rw [← hfirst]
    exact ihnext (eq_toValue hm) hf (by rw [hfirst, hmissing])
  | pass => cases ho
  | @inside t n e old new _ hmember h _ =>
    obtain rfl := Entity.toValue_inj ho
    obtain rfl := Entity.toValue_inj hf
    rw [Entity.value_set]
    split
    · next hname =>
      have hold : e.value member = old := hname ▸ Entity.value_of_get? hmember
      rw [hold] at hmissing ⊢
      exact h.completes.eq_of_isPlain (isPlain_of_isDefault hmissing)
    · rfl
  | item => cases ho

theorem passedInside (h : Numbered t value other) : PassedInside value other := by
  induction h with
  | refl => exact .refl _
  | trans _ _ ih ihnext => exact ih.trans ihnext
  | pass _ hfloor hheld h =>
    refine .of_items (h.passed hfloor hheld) (h.cases_item.imp fun item other hitem ↦ ?_) _
    rcases hitem with rfl | ⟨o, value, rfl, hmissing, rfl⟩
    · exact .refl _
    · exact .set_missing value hmissing
  | inside _ hmember _ ih => exact .set_member hmember ih
  | @item t container o f front back h ih =>
    have hsame {r : Value → Value → Prop} (hrefl : ∀ item, r item item)
        (hitem : r o.toValue f.toValue) :
        List.Forall₂ r (front ++ o.toValue :: back) (front ++ f.toValue :: back) :=
      List.rel_append (List.forall₂_same.2 fun item _ ↦ hrefl item)
        (.cons hitem (List.forall₂_same.2 fun item _ ↦ hrefl item))
    refine .of_items ⟨hsame .refl h.completes, fun member ↦ .inl ?_⟩ (hsame .refl ih) container
    refine untouched_of_forall₂ (hsame (fun item value ↦ isDefault_of_givenTo_self) ?_)
    intro value hvalue
    obtain ⟨_, _, ho, hf, hmissing, rfl⟩ := givenTo_eq_some.1 hvalue
    rw [h.value_missing ho hf hmissing]
    exact hmissing

end Numbered

end Value

end DocMapping
