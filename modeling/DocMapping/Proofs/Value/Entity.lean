import DocMapping.Proofs.Association
import DocMapping.Value

/-!
# Members of Entities

An entity holds its members in the order of their names, each name once.  Setting a member keeps the
order, and an entity is known by the values that are found in it.  Setting all members of an entity
again, in any order, therefore gives the entity itself.
-/

namespace DocMapping

namespace Entity

/-- Members are in the order of their names, and every name occurs once. -/
def Sorted (e : Entity) : Prop := e.members.Pairwise fun a b ↦ a.1 < b.1

instance (e : Entity) : Decidable e.Sorted :=
  inferInstanceAs (Decidable (e.members.Pairwise fun a b ↦ a.1 < b.1))

theorem get?_set (e : Entity) (member other : String) (value : Value) :
    (e.set member value).get? other = if other = member then some value else e.get? other := by
  obtain ⟨type, members⟩ := e
  change (insertMember member value members).lookup other = _
  induction members with
  | nil => exact Association.lookup_cons member other value []
  | cons entry rest ih =>
    obtain ⟨name, old⟩ := entry
    change _ = if other = member then some value else ((name, old) :: rest).lookup other
    unfold insertMember
    split
    · next heq =>
      rw [Association.lookup_cons, Association.lookup_cons, heq]
      split <;> rfl
    · next hne =>
      split
      · rw [Association.lookup_cons]
      · rw [Association.lookup_cons, Association.lookup_cons, ih]
        by_cases h : other = name
        · have hmember : other ≠ member := fun heq ↦ hne (heq.symm.trans h)
          rw [if_pos h, if_neg hmember, if_pos h]
        · rw [if_neg h, if_neg h]
          rfl

theorem mem_insertMember {member : String} {value : Value} {members : List (String × Value)}
    {entry : String × Value} (h : entry ∈ insertMember member value members) :
    entry = (member, value) ∨ entry ∈ members := by
  induction members with
  | nil => exact .inl (List.mem_singleton.1 h)
  | cons first rest ih =>
    unfold insertMember at h
    split at h
    · exact (List.mem_cons.1 h).imp id (List.mem_cons_of_mem _)
    · split at h
      · exact List.mem_cons.1 h
      · rcases List.mem_cons.1 h with heq | hrest
        · exact .inr (heq ▸ List.mem_cons_self)
        · exact (ih hrest).imp id (List.mem_cons_of_mem _)

theorem Sorted.set {e : Entity} (h : e.Sorted) (member : String) (value : Value) :
    (e.set member value).Sorted := by
  obtain ⟨type, members⟩ := e
  change (insertMember member value members).Pairwise _
  change members.Pairwise _ at h
  induction members with
  | nil => exact List.pairwise_singleton _ _
  | cons entry rest ih =>
    obtain ⟨name, old⟩ := entry
    obtain ⟨hfirst, hrest⟩ := List.pairwise_cons.1 h
    unfold insertMember
    split
    · next heq =>
      rw [heq]
      exact List.pairwise_cons.2 ⟨hfirst, hrest⟩
    · next hne =>
      split
      · next hlt =>
        refine List.pairwise_cons.2 ⟨List.forall_mem_cons.2 ⟨hlt, fun other hother ↦ ?_⟩, h⟩
        exact String.lt_trans hlt (hfirst other hother)
      · next hnot =>
        have hlt : name < member := by
          by_contra hother
          exact hne (String.le_antisymm (String.not_lt.1 hother) (String.not_lt.1 hnot))
        refine List.pairwise_cons.2 ⟨fun other hother ↦ ?_, ih hrest⟩
        rcases mem_insertMember hother with rfl | hold
        · exact hlt
        · exact hfirst other hold

theorem Sorted.nodup {e : Entity} (h : e.Sorted) : (e.members.map Prod.fst).Nodup := by
  rw [List.Nodup, List.pairwise_map]
  refine h.imp fun hlt heq ↦ ?_
  rw [heq] at hlt
  exact String.lt_irrefl _ hlt

/-- Entities are equal if the same values are found in both. -/
theorem Sorted.ext {e other : Entity} (he : e.Sorted) (hother : other.Sorted)
    (htype : e.type = other.type) (h : ∀ member, e.get? member = other.get? member) :
    e = other := by
  have hmem : ∀ entry, entry ∈ e.members ↔ entry ∈ other.members := by
    rintro ⟨member, value⟩
    constructor <;> intro hentry <;> apply Association.mem_of_lookup
    · exact (h member).symm.trans (Association.lookup_of_mem he.nodup hentry)
    · exact (h member).trans (Association.lookup_of_mem hother.nodup hentry)
  have hperm : e.members.Perm other.members :=
    (List.perm_ext_iff_of_nodup he.nodup.of_map hother.nodup.of_map).2 hmem
  have hmembers : e.members = other.members :=
    hperm.eq_of_pairwise (fun a b _ _ hab hba ↦ absurd hba (String.lt_asymm hab)) he hother
  cases e
  cases other
  cases htype
  cases hmembers
  rfl

/-! ## Members one after the other -/

/-- Sets members to what they are in another entity. -/
def setAll (source : Entity) (members : List String) (e : Entity) : Entity :=
  members.foldl (fun e member ↦ e.set member (source.value member)) e

theorem Sorted.setAll {e : Entity} (h : e.Sorted) (source : Entity) (members : List String) :
    (source.setAll members e).Sorted := by
  induction members generalizing e with
  | nil => exact h
  | cons member rest ih => exact ih (h.set member _)

theorem type_setAll (source : Entity) (members : List String) (e : Entity) :
    (source.setAll members e).type = e.type := by
  induction members generalizing e with
  | nil => rfl
  | cons member rest ih => exact ih (e.set member _)

theorem get?_setAll (source : Entity) (members : List String) (e : Entity) (other : String) :
    (source.setAll members e).get? other =
      if other ∈ members then some (source.value other) else e.get? other := by
  induction members generalizing e with
  | nil => rfl
  | cons member rest ih =>
    change (source.setAll rest (e.set member _)).get? other = _
    rw [ih, get?_set]
    by_cases hrest : other ∈ rest
    · rw [if_pos hrest, if_pos (List.mem_cons_of_mem member hrest)]
    · rw [if_neg hrest]
      by_cases hmember : other = member
      · rw [if_pos hmember, hmember, if_pos List.mem_cons_self]
      · rw [if_neg hmember, if_neg (by simp [hmember, hrest])]

/-- Setting all members of an entity again gives the entity. -/
theorem Sorted.setAll_empty {source : Entity} (h : source.Sorted) {members : List String}
    (hmembers : ∀ member, (source.get? member).isSome ↔ member ∈ members) :
    source.setAll members (empty source.type) = source := by
  have hempty : (empty source.type).Sorted := List.Pairwise.nil
  refine (hempty.setAll source members).ext h (type_setAll source members _) fun member ↦ ?_
  rw [get?_setAll]
  split
  · next hmem =>
    obtain ⟨value, hvalue⟩ := Option.isSome_iff_exists.1 ((hmembers member).2 hmem)
    rw [Entity.value, hvalue]
    rfl
  · next hmem =>
    rw [← hmembers, Option.not_isSome_iff_eq_none] at hmem
    rw [hmem]
    rfl

end Entity

theorem Value.eq_toValue {value : Value} {e : Entity} (h : value.entity? = some e) :
    value = e.toValue := by
  cases value <;> cases h
  rfl

end DocMapping
