import DocMapping.Proofs.Change.Restoration
import DocMapping.Proofs.Codec.Reading

/-!
# Snapshots

A snapshot of an entity has the values of its mapped members and no others, at every depth.  An
entity all of whose members are mapped is its own snapshot.  No snapshot equals an entity with other
members, because equality by structure counts the members of both sides.
-/

namespace DocMapping

/-! ## Copies member by member -/

namespace Entity

variable (source : Entity)

/-- One member of an entity, if it was ever set, is copied by a function. -/
def copyMember (copy : Entity) (member : String × (Value → Value)) : Entity :=
  match source.get? member.1 with
  | some value => copy.set member.1 (member.2 value)
  | none => copy

def copyMembers (members : List (String × (Value → Value))) (copy : Entity) : Entity :=
  members.foldl source.copyMember copy

theorem get?_copyMember (copy : Entity) (member : String × (Value → Value)) (other : String) :
    (source.copyMember copy member).get? other =
      if other = member.1 then ((source.get? other).map member.2).or (copy.get? other)
      else copy.get? other := by
  unfold copyMember
  split
  · next value hvalue =>
    rw [get?_set]
    split
    · next heq =>
      rw [heq, hvalue]
      rfl
    · rfl
  · next hnone =>
    split
    · next heq =>
      rw [heq, hnone]
      rfl
    · rfl

variable {members : List (String × (Value → Value))} {source}

theorem get?_copyMembers_of_notMem {other : String} (h : other ∉ members.map Prod.fst)
    (copy : Entity) : (source.copyMembers members copy).get? other = copy.get? other := by
  induction members generalizing copy with
  | nil => rfl
  | cons member rest ih =>
    rw [List.map_cons, List.mem_cons, not_or] at h
    change (source.copyMembers rest (source.copyMember copy member)).get? other = _
    rw [ih h.2, get?_copyMember, if_neg h.1]

theorem get?_copyMembers (hnames : (members.map Prod.fst).Nodup)
    {member : String × (Value → Value)} (hmember : member ∈ members) (copy : Entity) :
    (source.copyMembers members copy).get? member.1 =
      ((source.get? member.1).map member.2).or (copy.get? member.1) := by
  induction members generalizing copy with
  | nil => cases hmember
  | cons first rest ih =>
    obtain ⟨hfirst, hnames⟩ := List.nodup_cons.1 hnames
    change (source.copyMembers rest (source.copyMember copy first)).get? member.1 = _
    rcases List.mem_cons.1 hmember with rfl | hrest
    · rw [get?_copyMembers_of_notMem hfirst, get?_copyMember, if_pos rfl]
    · rw [ih hnames hrest, get?_copyMember, if_neg]
      exact fun heq ↦ hfirst (List.mem_map.2 ⟨member, hrest, heq⟩)

theorem Sorted.copyMembers {copy : Entity} (h : copy.Sorted) :
    (source.copyMembers members copy).Sorted := by
  refine List.foldlRecOn members _ (motive := Entity.Sorted) h fun copy hcopy member _ ↦ ?_
  unfold copyMember
  split
  · exact hcopy.set _ _
  · exact hcopy

theorem type_copyMembers (copy : Entity) : (source.copyMembers members copy).type = copy.type := by
  refine List.foldlRecOn members _ (motive := fun last : Entity ↦ last.type = copy.type) rfl ?_
  intro last hlast member _
  unfold copyMember
  split <;> exact hlast

end Entity

namespace EntityType

/-! ## Members of snapshots -/

/-- How each mapped member is copied. -/
def copies (t : EntityType) : List (String × (Value → Value)) :=
  t.properties.map (fun p ↦ (p.name, p.comparer.snapshot)) ++
    t.navigations.map fun n ↦ (n.name, snapshotOwned n)

theorem map_fst_copies (t : EntityType) : t.copies.map Prod.fst = t.members := by
  unfold copies members
  rw [List.map_append, List.map_map, List.map_map]
  rfl

theorem snapshotNavigations_eq (navigations : List (Navigation EntityType)) (e copy : Entity) :
    snapshotNavigations navigations e copy =
      e.copyMembers (navigations.map fun n ↦ (n.name, snapshotOwned n)) copy := by
  induction navigations generalizing copy with
  | nil =>
    rw [snapshotNavigations]
    rfl
  | cons n rest ih =>
    rw [snapshotNavigations, ih]
    rfl

theorem snapshot_eq (t : EntityType) (e : Entity) :
    t.snapshot e = e.copyMembers t.copies (Entity.empty e.type) := by
  have hproperties : copyProperties t.properties e = e.copyMembers
      (t.properties.map fun p ↦ (p.name, p.comparer.snapshot)) (Entity.empty e.type) := by
    rw [Entity.copyMembers, List.foldl_map]
    rfl
  have hnavigations : t.snapshot e =
      snapshotNavigations t.navigations e (copyProperties t.properties e) := by
    cases t
    rw [snapshot]
  rw [hnavigations, hproperties, snapshotNavigations_eq]
  exact List.foldl_append.symm

theorem sorted_snapshot (t : EntityType) (e : Entity) : (t.snapshot e).Sorted := by
  have hempty : (Entity.empty e.type).Sorted := List.Pairwise.nil
  rw [snapshot_eq]
  exact hempty.copyMembers

theorem type_snapshot (t : EntityType) (e : Entity) : (t.snapshot e).type = e.type := by
  rw [snapshot_eq, Entity.type_copyMembers]
  rfl

section Members

variable {t : EntityType} (h : t.NamesApart) (e : Entity)

theorem get?_snapshot_of_notMem {member : String} (hmember : member ∉ t.members) :
    (t.snapshot e).get? member = none := by
  rw [← map_fst_copies] at hmember
  rw [snapshot_eq, Entity.get?_copyMembers_of_notMem hmember]
  rfl

include h

theorem NamesApart.get?_snapshot {member : String × (Value → Value)} (hmember : member ∈ t.copies) :
    (t.snapshot e).get? member.1 = (e.get? member.1).map member.2 := by
  have hnames := h.distinct
  rw [← map_fst_copies] at hnames
  rw [snapshot_eq, Entity.get?_copyMembers hnames hmember]
  exact Option.or_none

theorem NamesApart.get?_snapshot_property {p : Property} (hp : p ∈ t.properties) :
    (t.snapshot e).get? p.name = e.get? p.name := by
  have hmember : (p.name, p.comparer.snapshot) ∈ t.copies :=
    List.mem_append_left _ (List.mem_map_of_mem hp)
  have hcopy : p.comparer.snapshot = id := funext p.comparer.snapshot_eq
  rw [h.get?_snapshot e hmember, hcopy]
  exact Option.map_id_apply

theorem NamesApart.get?_snapshot_navigation {n : Navigation EntityType} (hn : n ∈ t.navigations) :
    (t.snapshot e).get? n.name = (e.get? n.name).map (snapshotOwned n) := by
  have hmember : (n.name, snapshotOwned n) ∈ t.copies :=
    List.mem_append_right _ (List.mem_map_of_mem hn)
  exact h.get?_snapshot e hmember

theorem NamesApart.value_snapshot_property {p : Property} (hp : p ∈ t.properties) :
    (t.snapshot e).value p.name = e.value p.name := by
  rw [Entity.value, h.get?_snapshot_property e hp]
  rfl

end Members

/-! ## Copies of owned entities -/

section Owned

variable (n : Navigation EntityType)

theorem snapshotOwned_toValue (e : Entity) :
    snapshotOwned n e.toValue = (n.target.snapshot e).toValue := by
  cases n
  rw [Entity.toValue, snapshotOwned]

/-- The copy of one item of a collection. -/
def snapshotItem (t : EntityType) (item : Value) : Value :=
  match item with
  | .entity type members => (t.snapshot ⟨type, members⟩).toValue
  | other => other

theorem snapshotOwned_collection (container : Container) (items : List Value) :
    snapshotOwned n (.collection container items) =
      .collection container (items.map (snapshotItem n.target)) := by
  cases n
  rw [snapshotOwned]
  rfl

/-- Values that are neither entities nor collections are copied as they are. -/
theorem snapshotOwned_of_plain {value : Value} (hentity : value.entity? = none)
    (helements : value.elements? = none) : snapshotOwned n value = value := by
  cases n
  cases value with
  | entity => cases hentity
  | collection => cases helements
  | _ => rw [snapshotOwned] <;> simp

theorem entity?_snapshotOwned (value : Value) :
    (snapshotOwned n value).entity? = value.entity?.map n.target.snapshot := by
  cases value with
  | entity type members => exact congrArg Value.entity? (snapshotOwned_toValue n ⟨type, members⟩)
  | collection container items =>
    rw [snapshotOwned_collection]
    rfl
  | _ =>
    rw [snapshotOwned_of_plain n rfl rfl]
    rfl

theorem NamesApart.value_snapshot_navigation {t : EntityType} (h : t.NamesApart) (e : Entity)
    {n : Navigation EntityType} (hn : n ∈ t.navigations) :
    (t.snapshot e).value n.name = snapshotOwned n (e.value n.name) := by
  unfold Entity.value
  rw [h.get?_snapshot_navigation e hn]
  cases e.get? n.name with
  | none => exact (snapshotOwned_of_plain n rfl rfl).symm
  | some value => rfl

end Owned

/-! ## Members that are not mapped -/

/-- Some member of an entity, or of one that it owns at any depth, is not mapped. -/
inductive HasUnmapped : EntityType → Entity → Prop
  | member {t : EntityType} {e : Entity} {member : String} (hset : (e.get? member).isSome)
      (hmember : member ∉ t.members) : HasUnmapped t e
  | owned {t : EntityType} {e o : Entity} {n : Navigation EntityType} (hn : n ∈ t.navigations)
      (ho : o ∈ (e.value n.name).owned) (h : HasUnmapped n.target o) : HasUnmapped t e

theorem snapshotOwned_of_mapped {n : Navigation EntityType} {value : Value}
    (h : ∀ o ∈ value.owned, n.target.snapshot o = o) : snapshotOwned n value = value := by
  cases value with
  | entity type members =>
    have hsame : n.target.snapshot ⟨type, members⟩ = ⟨type, members⟩ := h _ List.mem_cons_self
    exact (snapshotOwned_toValue n ⟨type, members⟩).trans (congrArg Entity.toValue hsame)
  | collection container items =>
    rw [snapshotOwned_collection, List.map_congr_left (g := id), List.map_id]
    intro item hitem
    cases item with
    | entity type members =>
      exact congrArg Entity.toValue (h ⟨type, members⟩ (Value.mem_owned_collection.2 hitem))
    | _ => rfl
  | _ => exact snapshotOwned_of_plain n rfl rfl

/-- An entity all of whose members are mapped is its own snapshot. -/
theorem snapshot_of_mapped {t : EntityType} (h : t.NamesApart) {e : Entity} (he : e.DeepSorted)
    (hmapped : ¬HasUnmapped t e) : t.snapshot e = e := by
  induction t using owned_induction generalizing e with
  | h t ih =>
    refine (sorted_snapshot t e).ext he.1 (type_snapshot t e) fun member ↦ ?_
    by_cases hmember : member ∈ t.members
    · rcases List.mem_append.1 hmember with hmember | hmember
      · obtain ⟨p, hp, rfl⟩ := List.mem_map.1 hmember
        exact h.get?_snapshot_property e hp
      · obtain ⟨n, hn, rfl⟩ := List.mem_map.1 hmember
        rw [h.get?_snapshot_navigation e hn]
        cases hget : e.get? n.name with
        | none => rfl
        | some value =>
          have hvalue : e.value n.name = value := by
            rw [Entity.value, hget]
            rfl
          refine congrArg some (snapshotOwned_of_mapped fun o ho ↦ ?_)
          rw [← hvalue] at ho
          exact ih n hn (h.targets n hn) ((he.value n.name).of_mem_owned ho)
            fun hunmapped ↦ hmapped (.owned hn ho hunmapped)
    · rw [get?_snapshot_of_notMem e hmember]
      cases hget : e.get? member with
      | none => rfl
      | some value => exact absurd (.member (by rw [hget]; rfl) hmember) hmapped

/-- What equals a copy consists of entities that equal snapshots. -/
theorem mem_owned_of_structuralEq {n : Navigation EntityType} {value other : Value}
    (h : (snapshotOwned n value).structuralEq other = true) {o : Entity} (ho : o ∈ other.owned) :
    ∃ e ∈ value.owned, (n.target.snapshot e).toValue.structuralEq o.toValue = true := by
  cases value with
  | entity type members =>
    refine ⟨⟨type, members⟩, List.mem_cons_self, ?_⟩
    rw [← snapshotOwned_toValue]
    cases other with
    | entity =>
      cases List.mem_singleton.1 ho
      exact h
    | collection container items =>
      have hcopy := snapshotOwned_toValue n ⟨type, members⟩
      change (snapshotOwned n (Entity.toValue ⟨type, members⟩)).structuralEq _ = true at h
      rw [hcopy] at h
      cases h
    | _ => cases ho
  | collection container items =>
    rw [snapshotOwned_collection] at h
    cases other with
    | collection _ others =>
      rw [Value.structuralEq, Value.structuralEqItems_iff] at h
      obtain ⟨copy, hcopy, hequal⟩ := Outcome.exists_left h (Value.mem_owned_collection.1 ho)
      obtain ⟨item, hitem, rfl⟩ := List.mem_map.1 hcopy
      cases item with
      | entity type members =>
        exact ⟨⟨type, members⟩, Value.mem_owned_collection.2 hitem, hequal⟩
      | _ => cases hequal
    | entity => cases h
    | _ => cases ho
  | _ =>
    rw [snapshotOwned_of_plain n rfl rfl] at h
    cases other with
    | entity => cases h
    | collection => cases h
    | _ => cases ho

/-- An entity that equals a snapshot has mapped members only. -/
theorem mapped_of_structuralEq {t : EntityType} (h : t.NamesApart) {e other : Entity}
    (hother : other.DeepSorted)
    (hequal : (t.snapshot e).toValue.structuralEq other.toValue = true) : ¬HasUnmapped t other := by
  induction t using owned_induction generalizing e other with
  | h t ih =>
    have hback {member : String} {value : Value} (hvalue : other.get? member = some value) :=
      Value.get?_of_structuralEq (sorted_snapshot t e) hother.1 hequal hvalue
    rintro (⟨hset, hmember⟩ | ⟨hn, ho, hunmapped⟩)
    · obtain ⟨value, hvalue⟩ := Option.isSome_iff_exists.1 hset
      obtain ⟨copy, hcopy, -⟩ := hback hvalue
      cases (get?_snapshot_of_notMem e hmember).symm.trans hcopy
    · rename_i o n
      cases hget : other.get? n.name with
      | none =>
        rw [Entity.value, hget] at ho
        cases ho
      | some value =>
        have hvalue : other.value n.name = value := by
          rw [Entity.value, hget]
          rfl
        obtain ⟨copy, hcopy, hsame⟩ := hback hget
        rw [h.get?_snapshot_navigation e hn] at hcopy
        obtain ⟨original, -, rfl⟩ := Option.map_eq_some_iff.1 hcopy
        have hsorted : o.DeepSorted := (hother.value n.name).of_mem_owned ho
        rw [hvalue] at ho
        obtain ⟨inner, -, hinner⟩ := mem_owned_of_structuralEq hsame ho
        exact ih n hn (h.targets n hn) hsorted hinner hunmapped

end EntityType

end DocMapping
