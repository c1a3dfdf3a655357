import DocMapping.EntityType
import DocMapping.Proofs.Value.Equality

/-!
# Entities Inside of Values

The entities that a value holds itself or as items, and what equality by structure says of them: two
equal entities have the same members, and equal ones.  Entity types are trees, so that a property of
all types may be shown for one type from those that its navigations lead to.
-/

namespace DocMapping

namespace Value

/-- The entities that a value of a navigation consists of. -/
def owned : Value → List Entity
  | .collection _ items => items.filterMap Value.entity?
  | value => value.entity?.toList

theorem mem_owned_collection {container : Container} {items : List Value} {e : Entity} :
    e ∈ (collection container items).owned ↔ e.toValue ∈ items := by
  change e ∈ items.filterMap entity? ↔ _
  rw [List.mem_filterMap]
  constructor
  · rintro ⟨item, hitem, he⟩
    rw [← eq_toValue he]
    exact hitem
  · exact fun hitem ↦ ⟨_, hitem, rfl⟩

/-! ## Order of members -/

theorem Sorted.of_mem_owned {value : Value} (h : value.Sorted) {e : Entity}
    (he : e ∈ value.owned) : e.toValue.Sorted := by
  cases value with
  | entity type members =>
    cases List.mem_singleton.1 he
    exact h
  | collection container items => exact sortedItems_iff.1 h _ (mem_owned_collection.1 he)
  | _ => cases he

/-! ## Equality -/

theorem structuralEq_toValue {e f : Entity} :
    e.toValue.structuralEq f.toValue = true ↔ e.type = f.type ∧
      e.members.length = f.members.length ∧ ∀ entry ∈ e.members, ∃ other,
        f.get? entry.1 = some other ∧ entry.2.structuralEq other = true := by
  rw [Entity.toValue, Entity.toValue, structuralEq, Bool.and_eq_true, Bool.and_eq_true, beq_iff_eq,
    beq_iff_eq, structuralEqMembers_iff, and_assoc]
  rfl

/-- Of two equal entities, the first has an equal value of every member of the second. -/
theorem get?_of_structuralEq {e f : Entity} (he : e.Sorted) (hf : f.Sorted)
    (h : e.toValue.structuralEq f.toValue = true) {member : String} {value : Value}
    (hmember : f.get? member = some value) :
    ∃ other, e.get? member = some other ∧ other.structuralEq value = true := by
  obtain ⟨-, hlength, hmembers⟩ := structuralEq_toValue.1 h
  have hlookup : ∀ entry ∈ e.members, ∃ other, f.members.lookup entry.1 = some other ∧
      entry.2.structuralEq other = true := hmembers
  exact Association.exists_lookup_of_length_eq (r := fun x y ↦ x.structuralEq y = true) he.nodup
    hf.nodup hlength hlookup (member, value) (Association.mem_of_lookup hmember)

theorem structuralEq_self {e : Entity} (he : e.Sorted)
    (h : ∀ member value, e.get? member = some value → value.structuralEq value = true) :
    e.toValue.structuralEq e.toValue = true := by
  refine structuralEq_toValue.2 ⟨rfl, rfl, fun entry hentry ↦ ⟨entry.2, ?_, ?_⟩⟩
  · exact Association.lookup_of_mem he.nodup hentry
  · exact h entry.1 entry.2 (Association.lookup_of_mem he.nodup hentry)

theorem structuralEqItems_iff {items others : List Value} :
    structuralEqItems items others = true ↔
      List.Forall₂ (fun a b ↦ a.structuralEq b = true) items others := by
  induction items generalizing others with
  | nil => cases others <;> simp [structuralEqItems]
  | cons item rest ih =>
    cases others with
    | nil => simp [structuralEqItems]
    | cons other others => rw [structuralEqItems, Bool.and_eq_true, ih, List.forall₂_cons]

end Value

/-! ## Trees of types -/

/-- What holds of a type if it holds of the types that its navigations lead to holds of all. -/
theorem EntityType.owned_induction {P : EntityType → Prop}
    (h : ∀ t : EntityType, (∀ n ∈ t.navigations, P n.target) → P t) (t : EntityType) : P t := by
  refine h t fun n hn ↦ owned_induction h n.target
termination_by sizeOf t
decreasing_by
  have hnavigation := List.sizeOf_lt_of_mem hn
  obtain ⟨name, collection, properties, keys, navigations, discriminator⟩ := t
  obtain ⟨member, element, target, container, nullable⟩ := n
  simp only [EntityType.mk.sizeOf_spec, Navigation.mk.sizeOf_spec] at hnavigation ⊢
  omega

end DocMapping
