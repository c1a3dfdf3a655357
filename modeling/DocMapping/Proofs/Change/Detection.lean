import DocMapping.Proofs.Change.Lifecycle
import DocMapping.Proofs.Change.Snapshot
import DocMapping.Proofs.Codec.Lossless

/-!
# Detection of Changes

A stored entity counts as modified if its mapped members differ from those that were stored, or its
key does.  That is so with one exception: the entities of a collection are compared with all of their
members, so that a member that is not mapped, and never stored, counts as a change.
-/

namespace DocMapping

namespace EntityType

/-! ## Empty differences -/

section Empty

variable {start : String} {before after : Entity}

theorem diffProperties_eq_nil {t : EntityType} :
    t.diffProperties start before after = .ok [] ↔ ∀ p ∈ t.storedProperties,
      p.comparer.equals (before.value p.name) (after.value p.name) = true := by
  unfold diffProperties
  rw [Outcome.mapM_eq_ok, List.forall₂_nil_right_iff, List.filter_eq_nil_iff]
  simp

theorem append_eq_nil {first others : Outcome Document} :
    (do return (← first) ++ (← others)) = (.ok [] : Outcome Document) ↔
      first = .ok [] ∧ others = .ok [] := by
  rw [Outcome.bind_eq_ok]
  constructor
  · rintro ⟨changes, hfirst, h⟩
    obtain ⟨rest, hothers, h⟩ := Outcome.bind_eq_ok.1 h
    obtain ⟨rfl, rfl⟩ := List.append_eq_nil_iff.1 (Except.ok.inj h)
    exact ⟨hfirst, hothers⟩
  · rintro ⟨rfl, rfl⟩
    exact ⟨[], rfl, rfl⟩

theorem diffNavigations_eq_nil {navigations : List (Navigation EntityType)} :
    diffNavigations start before after navigations = .ok [] ↔ ∀ n ∈ navigations,
      diffNavigation start (before.value n.name) (after.value n.name) n = .ok [] := by
  induction navigations with
  | nil =>
    rw [diffNavigations]
    simp
  | cons n rest ih =>
    rw [diffNavigations, List.forall_mem_cons, ← ih]
    exact append_eq_nil

/-- A difference is empty if no path has changed. -/
theorem diffFrom_eq_nil {t : EntityType} :
    t.diffFrom start before after = .ok [] ↔ ∀ path, ¬ChangedAt t before after path := by
  induction t using owned_induction generalizing start before after with
  | h t ih =>
    have hnavigation : ∀ n ∈ t.navigations,
        (diffNavigation start (before.value n.name) (after.value n.name) n = .ok [] ↔
          ∀ path, ¬OwnedChangedAt n (before.value n.name) (after.value n.name) path) := by
      intro n hn
      by_cases hentered : IsEntered n (before.value n.name) (after.value n.name)
      · obtain ⟨hsingle, hb, ha⟩ := hentered
        obtain ⟨b, hb⟩ := Option.isSome_iff_exists.1 hb
        obtain ⟨a, ha⟩ := Option.isSome_iff_exists.1 ha
        rw [diffNavigation_inside hsingle hb ha, ih n hn]
        simp only [ownedChangedAt_inside hsingle hb ha]
      · rw [diffNavigation_whole hentered]
        simp only [ownedChangedAt_whole hentered]
        cases (before.value n.name).structuralEq (after.value n.name) with
        | true => simp
        | false =>
          rw [if_neg Bool.false_ne_true, Outcome.map_eq_ok]
          simp
    have hdiff : t.diffFrom start before after = .ok [] ↔ _ :=
      (iff_of_eq (congrArg (· = .ok []) (diffFrom_eq t start before after))).trans append_eq_nil
    rw [hdiff, diffProperties_eq_nil, diffNavigations_eq_nil]
    constructor
    · rintro ⟨hproperties, hnavigations⟩ path (⟨hp, h⟩ | ⟨hn, h⟩)
      · rw [hproperties _ hp] at h
        cases h
      · exact (hnavigation _ hn).1 (hnavigations _ hn) _ h
    · intro h
      refine ⟨fun p hp ↦ ?_, fun n hn ↦ (hnavigation n hn).2 fun path hpath ↦ ?_⟩
      · exact Bool.eq_true_of_not_eq_false fun hchanged ↦ h _ (.property hp hchanged)
      · exact h _ (.navigation hn hpath)

theorem differs_iff {t : EntityType} :
    t.differs before after = true ↔
      (∃ path, ChangedAt t before after path) ∨ t.keyChanged before after = true := by
  by_cases h : ∃ path, ChangedAt t before after path
  · refine iff_of_true ?_ (.inl h)
    have hdiff : t.diffFrom "" before after ≠ .ok [] := fun hnil ↦
      absurd h (not_exists.2 (diffFrom_eq_nil.1 hnil))
    unfold differs diff
    cases hchanges : t.diffFrom "" before after with
    | error fault => rfl
    | ok changes =>
      cases changes with
      | nil => exact absurd hchanges hdiff
      | cons a rest =>
        have hname : a.1 ∈ (Document.ofList (a :: rest)).names := by
          rw [Document.ofList_eq_insertAll, Document.mem_names_insertAll]
          exact .inr List.mem_cons_self
        change (!(Document.ofList (a :: rest)).isEmpty || _) = true
        cases hlist : Document.ofList (a :: rest) with
        | nil =>
          rw [hlist] at hname
          cases hname
        | cons => rfl
  · have hdiff : t.diff before after = .ok [] := by
      rw [diff, diffFrom_eq_nil.2 (not_exists.1 h)]
      rfl
    unfold differs
    rw [hdiff]
    simp [h]

end Empty

/-! ## Members that are not mapped -/

mutual

/-- An owned entity that is compared as a whole has a member that is not mapped. -/
inductive HoldsUnmapped : EntityType → Entity → Prop
  | navigation {t : EntityType} {e : Entity} {n : Navigation EntityType} (hn : n ∈ t.navigations)
      (h : OwnedHoldsUnmapped n (e.value n.name)) : HoldsUnmapped t e

/-- All that is not a single entity where one belongs is compared as a whole. -/
inductive OwnedHoldsUnmapped : Navigation EntityType → Value → Prop
  | whole {n : Navigation EntityType} {value : Value} {o : Entity}
      (hwhole : ¬(n.container = none ∧ value.entity?.isSome)) (ho : o ∈ value.owned)
      (h : HasUnmapped n.target o) : OwnedHoldsUnmapped n value
  | inside {n : Navigation EntityType} {value : Value} {o : Entity} (hsingle : n.container = none)
      (ho : value.entity? = some o) (h : HoldsUnmapped n.target o) : OwnedHoldsUnmapped n value

end

theorem holdsUnmapped_iff {t : EntityType} {e : Entity} :
    HoldsUnmapped t e ↔ ∃ n ∈ t.navigations, OwnedHoldsUnmapped n (e.value n.name) :=
  ⟨fun ⟨hn, h⟩ ↦ ⟨_, hn, h⟩, fun ⟨_, hn, h⟩ ↦ .navigation hn h⟩

section Unmapped

variable {n : Navigation EntityType} {value : Value}

theorem ownedHoldsUnmapped_whole (hwhole : ¬(n.container = none ∧ value.entity?.isSome)) :
    OwnedHoldsUnmapped n value ↔ ∃ o ∈ value.owned, HasUnmapped n.target o := by
  constructor
  · rintro (⟨-, ho, h⟩ | ⟨hsingle, ho, -⟩)
    · exact ⟨_, ho, h⟩
    · exact absurd ⟨hsingle, by rw [ho]; rfl⟩ hwhole
  · rintro ⟨o, ho, h⟩
    exact .whole hwhole ho h

theorem ownedHoldsUnmapped_inside (hsingle : n.container = none) {o : Entity}
    (ho : value.entity? = some o) : OwnedHoldsUnmapped n value ↔ HoldsUnmapped n.target o := by
  constructor
  · rintro (⟨hwhole, -, -⟩ | ⟨-, hsame, h⟩)
    · exact absurd ⟨hsingle, by rw [ho]; rfl⟩ hwhole
    · cases ho.symm.trans hsame
      exact h
  · exact .inside hsingle ho

end Unmapped

theorem exists_changedAt_iff {t : EntityType} {before after : Entity} :
    (∃ path, ChangedAt t before after path) ↔
      (∃ p ∈ t.storedProperties,
        p.comparer.equals (before.value p.name) (after.value p.name) = false) ∨
      ∃ n ∈ t.navigations, ∃ path,
        OwnedChangedAt n (before.value n.name) (after.value n.name) path := by
  constructor
  · rintro ⟨_, ⟨hp, h⟩ | ⟨hn, h⟩⟩
    · exact .inl ⟨_, hp, h⟩
    · exact .inr ⟨_, hn, _, h⟩
  · rintro (⟨p, hp, h⟩ | ⟨n, hn, path, h⟩)
    · exact ⟨_, .property hp h⟩
    · exact ⟨_, .navigation hn h⟩

/-- A collection equals a copy if the mapped members do and there are no others. -/
theorem structuralEq_snapshotOwned {n : Navigation EntityType} (h : n.target.NamesApart)
    {value other : Value} (hother : other.Sorted) :
    (snapshotOwned n value).structuralEq other = true ↔
      (snapshotOwned n value).structuralEq (snapshotOwned n other) = true ∧
        ∀ o ∈ other.owned, ¬HasUnmapped n.target o := by
  have hcopy (hmapped : ∀ o ∈ other.owned, ¬HasUnmapped n.target o) :
      snapshotOwned n other = other :=
    snapshotOwned_of_mapped fun o ho ↦
      snapshot_of_mapped h (hother.of_mem_owned ho) (hmapped o ho)
  constructor
  · intro hequal
    have hmapped : ∀ o ∈ other.owned, ¬HasUnmapped n.target o := by
      intro o ho
      obtain ⟨e, -, hsame⟩ := mem_owned_of_structuralEq hequal ho
      exact mapped_of_structuralEq h (hother.of_mem_owned ho) hsame
    rw [hcopy hmapped]
    exact ⟨hequal, hmapped⟩
  · rintro ⟨hequal, hmapped⟩
    rwa [hcopy hmapped] at hequal

/-- An entity where there was none is a change. -/
theorem exists_ownedChangedAt_of_entity {n : Navigation EntityType} {before after : Value}
    (hbefore : before.entity? = none) {e : Entity} (hafter : after.entity? = some e) :
    ∃ path, OwnedChangedAt n before after path := by
  have hwhole : ¬IsEntered n before after := by
    rintro ⟨-, hsome, -⟩
    rw [hbefore] at hsome
    cases hsome
  refine ⟨[], .whole hwhole ?_⟩
  rw [Value.eq_toValue hafter]
  cases before with
  | entity => cases hbefore
  | _ => rfl

/-- The step of the comparison with a snapshot: what holds of the type that a navigation leads to
holds of what it holds. -/
theorem exists_ownedChangedAt_snapshot {n : Navigation EntityType} (h : n.target.NamesApart)
    (htarget : ∀ old new : Entity, new.DeepSorted →
      ((∃ path, ChangedAt n.target (n.target.snapshot old) new path) ↔
        (∃ path, ChangedAt n.target (n.target.snapshot old) (n.target.snapshot new) path) ∨
          HoldsUnmapped n.target new))
    {before after : Value} (hafter : after.Sorted) :
    (∃ path, OwnedChangedAt n (snapshotOwned n before) after path) ↔
      (∃ path, OwnedChangedAt n (snapshotOwned n before) (snapshotOwned n after) path) ∨
        OwnedHoldsUnmapped n after := by
  by_cases hsingle : n.container = none ∧ after.entity?.isSome
  · obtain ⟨hnone, hnew⟩ := hsingle
    obtain ⟨new, hnew⟩ := Option.isSome_iff_exists.1 hnew
    have hcopy : (snapshotOwned n after).entity? = some (n.target.snapshot new) := by
      rw [entity?_snapshotOwned, hnew]
      rfl
    have hbefore : (snapshotOwned n before).entity? = before.entity?.map n.target.snapshot :=
      entity?_snapshotOwned n before
    cases hold : before.entity? with
    | some old =>
      rw [hold] at hbefore
      have hsorted : new.DeepSorted := by
        rw [Value.eq_toValue hnew] at hafter
        exact hafter
      rw [ownedHoldsUnmapped_inside hnone hnew]
      simp only [ownedChangedAt_inside hnone hbefore hnew,
        ownedChangedAt_inside hnone hbefore hcopy]
      exact htarget old new hsorted
    | none =>
      rw [hold] at hbefore
      exact iff_of_true (exists_ownedChangedAt_of_entity hbefore hnew)
        (.inl (exists_ownedChangedAt_of_entity hbefore hcopy))
  · have hnot : ¬IsEntered n (snapshotOwned n before) after :=
      fun hentered ↦ hsingle ⟨hentered.1, hentered.2.2⟩
    have hnotCopy : ¬IsEntered n (snapshotOwned n before) (snapshotOwned n after) := by
      rintro ⟨hnone, -, hsome⟩
      rw [entity?_snapshotOwned, Option.isSome_map] at hsome
      exact hsingle ⟨hnone, hsome⟩
    simp only [ownedChangedAt_whole hnot, ownedChangedAt_whole hnotCopy,
      ownedHoldsUnmapped_whole hsingle, exists_eq_left, ← Bool.not_eq_true,
      structuralEq_snapshotOwned h hafter, not_and_or, not_forall, not_not, exists_prop]

/-- An entity differs from a snapshot in its mapped members, or has others where no member is
passed over. -/
theorem NamesApart.exists_changedAt_snapshot {t : EntityType} (h : t.NamesApart) (before : Entity)
    {after : Entity} (hafter : after.DeepSorted) :
    (∃ path, ChangedAt t (t.snapshot before) after path) ↔
      (∃ path, ChangedAt t (t.snapshot before) (t.snapshot after) path) ∨
        HoldsUnmapped t after := by
  induction t using owned_induction generalizing before after with
  | h t ih =>
    have hnavigation : ∀ n ∈ t.navigations,
        ((∃ path, OwnedChangedAt n ((t.snapshot before).value n.name) (after.value n.name) path) ↔
          (∃ path, OwnedChangedAt n ((t.snapshot before).value n.name)
            ((t.snapshot after).value n.name) path) ∨
          OwnedHoldsUnmapped n (after.value n.name)) := by
      intro n hn
      rw [h.value_snapshot_navigation before hn, h.value_snapshot_navigation after hn]
      exact exists_ownedChangedAt_snapshot (h.targets n hn)
        (fun old new hnew ↦ ih n hn (h.targets n hn) old hnew) (hafter.value n.name)
    rw [exists_changedAt_iff, exists_changedAt_iff, holdsUnmapped_iff, or_assoc]
    refine or_congr (exists_congr fun p ↦ and_congr_right fun hp ↦ ?_) ?_
    · rw [h.value_snapshot_property after (mem_storedProperties.1 hp).1]
    · rw [← exists_or]
      refine exists_congr fun n ↦ ?_
      rw [← and_or_left]
      exact and_congr_right (hnavigation n)

end EntityType

/-! ## Stored entities equal themselves -/

namespace Property

variable {p : Property} {value : Value}

theorem itemsEq_self {nullable : Bool} {stored : Bson} (elements : ElementComparison)
    (h : p.encodeItem nullable value = .ok stored) :
    Comparer.itemsEq elements value value = true ∧ value.structuralEq value = true := by
  have hself : value.structuralEq value = true := by
    unfold encodeItem at h
    split at h
    · simp [Value.structuralEq, Value.strictEq]
    · exact structuralEq_self h
  refine ⟨?_, hself⟩
  cases elements with
  | value => exact hself
  | nullableValue | reference =>
    simp only [Comparer.itemsEq]
    rw [hself]
    cases value.isNull <;> rfl

theorem sequencesEq_self {nullable : Bool} {items : List Value} {stored : List Bson}
    (elements : ElementComparison) (h : items.mapM (p.encodeItem nullable) = .ok stored) :
    Comparer.sequencesEq elements items items = true ∧
      Value.structuralEqItems items items = true := by
  rw [Outcome.mapM_eq_ok] at h
  induction h with
  | nil => exact ⟨rfl, rfl⟩
  | cons hitem _ ih =>
    obtain ⟨hequal, hsame⟩ := itemsEq_self elements hitem
    rw [Comparer.sequencesEq, Value.structuralEqItems, hequal, hsame, ih.1, ih.2]
    exact ⟨rfl, rfl⟩

/-- A value with a stored form equals itself by structure and by the comparer. -/
theorem equals_self {stored : Bson} (h : p.encode value = .ok stored) :
    p.comparer.equals value value = true ∧ value.structuralEq value = true := by
  replace h := Outcome.mapError_eq_ok.1 h
  unfold encodeValue at h
  unfold comparer
  cases hkind : p.kind with
  | scalar kind =>
    rw [hkind] at h
    exact ⟨structuralEq_self h, structuralEq_self h⟩
  | collection container element nullable =>
    rw [hkind] at h
    dsimp only at h
    split at h
    · exact ⟨rfl, by simp [Value.structuralEq, Value.strictEq]⟩
    · obtain ⟨results, hresults, -⟩ := Outcome.map_eq_ok.1 h
      rw [Value.structuralEq]
      exact sequencesEq_self _ hresults
    · cases h

end Property

namespace EntityType

variable {t : EntityType} {e : Entity} {document : Document}

/-- A navigation with a stored form holds nothing, or entities that have documents. -/
theorem encodeNavigation_cases {n : Navigation EntityType} {value : Value} {stored : Bson}
    (h : encodeNavigation n value = .ok stored) :
    value = .null ∨ (∃ o document, value = o.toValue ∧ n.target.encode o = .ok document) ∨
      ∃ container items, value = .collection container items ∧ ∀ item ∈ items, ∃ o document,
        item = Entity.toValue o ∧ n.target.encode o = .ok document := by
  obtain ⟨name, element, target, container, nullable⟩ := n
  unfold encodeNavigation at h
  split at h
  · exact .inl rfl
  · next type members =>
    obtain ⟨document, hdocument, -⟩ := Outcome.map_eq_ok.1 h
    exact .inr (.inl ⟨⟨type, members⟩, document, rfl, hdocument⟩)
  · next form items container =>
    obtain ⟨results, hresults, -⟩ := Outcome.map_eq_ok.1 h
    refine .inr (.inr ⟨form, items, rfl, fun item hitem ↦ ?_⟩)
    obtain ⟨stored, -, hencode⟩ := Outcome.mem_of_mapM hresults hitem
    cases item with
    | entity type members =>
      obtain ⟨document, hdocument, -⟩ := Outcome.map_eq_ok.1 hencode
      exact ⟨⟨type, members⟩, document, rfl, hdocument⟩
    | _ => cases hencode
  · cases h

/-- The copy of what a navigation holds equals itself if those of the entities in it do. -/
theorem snapshotOwned_self {n : Navigation EntityType} {value : Value} {stored : Bson}
    (h : encodeNavigation n value = .ok stored)
    (howned : ∀ o document, n.target.encode o = .ok document →
      (n.target.snapshot o).toValue.structuralEq (n.target.snapshot o).toValue = true) :
    (snapshotOwned n value).structuralEq (snapshotOwned n value) = true := by
  obtain rfl | ⟨o, document, rfl, hdocument⟩ | ⟨container, items, rfl, hitems⟩ :=
    encodeNavigation_cases h
  · rw [snapshotOwned_of_plain n rfl rfl]
    simp [Value.structuralEq, Value.strictEq]
  · rw [snapshotOwned_toValue]
    exact howned o document hdocument
  · rw [snapshotOwned_collection, Value.structuralEq, Value.structuralEqItems_iff,
      List.forall₂_map_left_iff, List.forall₂_map_right_iff, List.forall₂_same]
    intro item hitem
    obtain ⟨o, document, rfl, hdocument⟩ := hitems item hitem
    exact howned o document hdocument

theorem WellFormed.snapshot_self (h : t.WellFormed) (hapart : t.NamesApart)
    (howned : t.isOwned = true) (hdocument : t.encode e = .ok document) :
    (t.snapshot e).toValue.structuralEq (t.snapshot e).toValue = true := by
  induction t using owned_induction generalizing e document with
  | h t ih =>
    have hencoded := h.encoded hdocument
    refine Value.structuralEq_self (sorted_snapshot t e) fun member value hvalue ↦ ?_
    by_cases hmember : member ∈ t.members
    · rcases List.mem_append.1 hmember with hmember | hmember
      · obtain ⟨p, hp, rfl⟩ := List.mem_map.1 hmember
        obtain ⟨stored, hstored, -⟩ :=
          hencoded.property p (mem_storedProperties.2 ⟨hp, .inl howned⟩)
        rw [hapart.get?_snapshot_property e hp] at hvalue
        rw [Entity.value, hvalue] at hstored
        exact (Property.equals_self hstored).2
      · obtain ⟨n, hn, rfl⟩ := List.mem_map.1 hmember
        obtain ⟨stored, hstored, -⟩ := hencoded.navigation n hn
        rw [hapart.get?_snapshot_navigation e hn] at hvalue
        obtain ⟨original, horiginal, rfl⟩ := Option.map_eq_some_iff.1 hvalue
        rw [Entity.value, horiginal] at hstored
        exact snapshotOwned_self hstored fun o inner hinner ↦
          ih n hn (h.targets n hn) (hapart.targets n hn) (h.owned n hn) hinner
    · cases (get?_snapshot_of_notMem e hmember).symm.trans hvalue

/-- The mapped members of an entity with a document do not differ from themselves. -/
theorem WellFormed.not_changedAt_snapshot (h : t.WellFormed) (hapart : t.NamesApart)
    (hdocument : t.encode e = .ok document) :
    ¬∃ path, ChangedAt t (t.snapshot e) (t.snapshot e) path := by
  induction t using owned_induction generalizing e document with
  | h t ih =>
    have hencoded := h.encoded hdocument
    rw [exists_changedAt_iff]
    rintro (⟨p, hp, hchanged⟩ | ⟨n, hn, path, hchanged⟩)
    · obtain ⟨stored, hstored, -⟩ := hencoded.property p hp
      rw [hapart.value_snapshot_property e (mem_storedProperties.1 hp).1,
        (Property.equals_self hstored).1] at hchanged
      cases hchanged
    · obtain ⟨stored, hstored, -⟩ := hencoded.navigation n hn
      rw [hapart.value_snapshot_navigation e hn] at hchanged
      cases hchanged with
      | whole _ hdiffer =>
        rw [snapshotOwned_self hstored fun o inner hinner ↦ (h.targets n hn).snapshot_self
          (hapart.targets n hn) (h.owned n hn) hinner] at hdiffer
        cases hdiffer
      | inside hsingle hbefore hafter hinside =>
        cases hbefore.symm.trans hafter
        rw [entity?_snapshotOwned] at hbefore
        obtain ⟨o, ho, rfl⟩ := Option.map_eq_some_iff.1 hbefore
        obtain ⟨inner, hinner, -⟩ := h.lookup_owned hn hsingle ho hdocument
        exact ih n hn (h.targets n hn) (hapart.targets n hn) hinner ⟨path, hinside⟩

/-! ## Keys -/

theorem WellFormed.keyChanged_snapshot (h : t.WellFormed) (hapart : t.NamesApart)
    (before after : Entity) : t.keyChanged (t.snapshot before) after = t.keyChanged before after := by
  unfold keyChanged
  congr 1
  rw [Bool.eq_iff_iff, List.any_eq_true, List.any_eq_true]
  refine exists_congr fun p ↦ and_congr_right fun hp ↦ ?_
  rw [hapart.value_snapshot_property before (h.keys p hp)]

theorem keyChanged_self (hdocument : t.encode e = .ok document) : t.keyChanged e e = false := by
  unfold keyChanged
  cases hroot : t.isOwned with
  | true => rfl
  | false =>
    obtain ⟨front, body, hfront, -⟩ := encode_eq_ofList hdocument
    unfold IsFront at hfront
    rw [hroot, if_neg (by simp)] at hfront
    obtain ⟨key, hkey, -⟩ := hfront
    have hself : ∀ p ∈ t.keys, (e.value p.name).structuralEq (e.value p.name) = true := by
      intro p hp
      cases hcomposite : t.hasCompositeKey with
      | true =>
        unfold keyValue at hkey
        rw [hcomposite, if_pos rfl, keyElements_eq] at hkey
        obtain ⟨elements, helements, -⟩ := Outcome.map_eq_ok.1 hkey
        obtain ⟨element, -, helement⟩ := Outcome.mem_of_mapM helements hp
        obtain ⟨stored, hstored, -⟩ := Outcome.map_eq_ok.1 helement
        exact (Property.equals_self hstored).2
      | false =>
        rw [keyValue_single hroot hcomposite hp] at hkey
        exact (Property.equals_self hkey).2
    simpa using hself

end EntityType

/-! ## Detection -/

namespace ChangeEntry

open EntityType (ChangedAt HoldsUnmapped)

variable {e : ChangeEntry}

/-- The entity has just been stored, or was taken over as it is stored. -/
inductive Stores (t : EntityType) (stored : Entity) : ChangeEntry → Prop
  | unchanged : Stores t stored (ChangeEntry.unchanged t stored)
  | accepted {e : ChangeEntry} (type : e.type = t) (current : e.current = stored)
      (written : e.state = .added ∨ e.state = .modified ∨ e.state = .unchanged) :
      Stores t stored e.accept

/-- The entity is compared with what was stored of it. -/
structure IsCompared (t : EntityType) (stored : Entity) (e : ChangeEntry) : Prop where
  type : e.type = t
  baseline : e.baseline = t.snapshot stored
  state : e.state = .unchanged ∨ e.state = .modified

variable {t : EntityType} {stored : Entity}

theorem Stores.isCompared (h : Stores t stored e) : IsCompared t stored e ∧ e.current = stored := by
  cases h with
  | unchanged => exact ⟨⟨rfl, rfl, .inl rfl⟩, rfl⟩
  | @accepted e htype hcurrent hwritten =>
    have haccept : e.accept = ⟨t, .unchanged, stored, t.snapshot stored⟩ := by
      obtain ⟨type, state, current, baseline⟩ := e
      cases htype
      cases hcurrent
      rcases hwritten with hstate | hstate | hstate <;> cases hstate <;> rfl
    rw [haccept]
    exact ⟨⟨rfl, rfl, .inl rfl⟩, rfl⟩

theorem IsCompared.detect_eq (h : IsCompared t stored e) :
    e.detect = { e with state := if t.differs (t.snapshot stored) e.current then .modified
      else .unchanged } := by
  obtain ⟨htype, hbaseline, hstate⟩ := h
  obtain ⟨type, state, current, baseline⟩ := e
  obtain rfl : type = t := htype
  obtain rfl : baseline = type.snapshot stored := hbaseline
  exact if_pos hstate

theorem IsCompared.touch (h : IsCompared t stored e) {touch : Touch} (hdelete : touch ≠ .delete)
    (haccept : touch ≠ .accept) : IsCompared t stored (e.touch touch) := by
  cases touch with
  | delete => exact absurd rfl hdelete
  | accept => exact absurd rfl haccept
  | assign current => exact ⟨h.type, h.baseline, h.state⟩
  | detect =>
    change IsCompared t stored e.detect
    rw [h.detect_eq]
    refine ⟨h.type, h.baseline, ?_⟩
    split
    · exact .inr rfl
    · exact .inl rfl

theorem IsCompared.after (h : IsCompared t stored e) {touches : List Touch}
    (hdelete : .delete ∉ touches) (haccept : .accept ∉ touches) :
    IsCompared t stored (e.after touches) := by
  induction touches generalizing e with
  | nil => exact h
  | cons touch rest ih =>
    rw [List.mem_cons, not_or] at hdelete haccept
    exact ih (h.touch (Ne.symm hdelete.1) (Ne.symm haccept.1)) hdelete.2 haccept.2

/-- A stored entity is found to be changed exactly if its mapped members or its key are others than
those that were stored, or one that is compared as a whole has a member that is not mapped.  Right
after it was stored, only the latter can be. -/
theorem detect_exact (h : t.WellFormed) (hapart : t.NamesApart) (hstored : stored.DeepSorted)
    (he : Stores t stored e) :
    (∀ touches : List Touch, .delete ∉ touches → .accept ∉ touches →
      (e.after touches).current.DeepSorted →
        ((e.after touches).detect.state = .unchanged ∨
          (e.after touches).detect.state = .modified) ∧
        ((e.after touches).detect.state = .modified ↔
          (∃ path, ChangedAt t (t.snapshot stored) (t.snapshot (e.after touches).current) path) ∨
            t.keyChanged stored (e.after touches).current = true ∨
            HoldsUnmapped t (e.after touches).current)) ∧
      ∀ document, t.encode stored = .ok document →
        (e.detect.state = .unchanged ↔ ¬HoldsUnmapped t stored) := by
  obtain ⟨hcompared, hcurrent⟩ := he.isCompared
  have hmodified : ∀ {f : ChangeEntry}, IsCompared t stored f → f.current.DeepSorted →
      (f.detect.state = .modified ↔
        (∃ path, ChangedAt t (t.snapshot stored) (t.snapshot f.current) path) ∨
          t.keyChanged stored f.current = true ∨ HoldsUnmapped t f.current) := by
    intro f hf hsorted
    have hdiffers : t.differs (t.snapshot stored) f.current = true ↔ _ := EntityType.differs_iff
    rw [hapart.exists_changedAt_snapshot stored hsorted, h.keyChanged_snapshot hapart, or_assoc,
      or_comm (a := HoldsUnmapped t f.current)] at hdiffers
    rw [hf.detect_eq, ← hdiffers]
    cases t.differs (t.snapshot stored) f.current <;> simp
  have hstates : ∀ {f : ChangeEntry}, IsCompared t stored f →
      f.detect.state = .unchanged ∨ f.detect.state = .modified := by
    intro f hf
    have hdetect : IsCompared t stored (f.touch .detect) := hf.touch (by simp) (by simp)
    exact hdetect.state
  constructor
  · intro touches hdelete haccept hsorted
    have hafter := hcompared.after hdelete haccept
    exact ⟨hstates hafter, hmodified hafter hsorted⟩
  · intro document hdocument
    have hiff := hmodified hcompared (hcurrent ▸ hstored)
    rw [hcurrent, EntityType.keyChanged_self hdocument] at hiff
    have hsame := h.not_changedAt_snapshot hapart hdocument
    rcases hstates hcompared with hstate | hstate <;> rw [hstate] at hiff ⊢
    · simpa [hsame] using hiff
    · simpa [hsame] using hiff

/-! ## Mars and its moons -/

open EntityType (planet moon orbit mars systems)

theorem namesApart_planet : planet.NamesApart :=
  .mk (by decide) (List.forall_mem_cons.2 ⟨.mk (by decide) (by simp [moon]),
    List.forall_mem_singleton.2 (.mk (by decide) (by simp [orbit]))⟩)

/-- Mars with its moons and an orbit. -/
def orbiting (moons : List Value) (days : Int32) : Entity :=
  ⟨"Planet", [("Moons", .collection .list moons), ("Orbit", .entity "Orbit" [("Days", .int32 days)]),
    ("Place", .int32 4), ("Star", .string "Sun")]⟩

theorem deepSorted_orbiting {moons : List Value} (h : Value.SortedItems moons) (days : Int32) :
    (orbiting moons days).DeepSorted := by
  have hnames : ["Moons", "Orbit", "Place", "Star"].Pairwise (· < ·) := by decide
  have hsorted : (orbiting moons days).Sorted := List.Pairwise.of_map Prod.fst (fun _ _ h ↦ h) hnames
  exact ⟨hsorted, h, ⟨List.pairwise_singleton _ _, trivial, trivial⟩, trivial, trivial, trivial⟩

theorem wellFormed_planet : planet.WellFormed := by
  have hbuild : systems.build = .ok ⟨[orbit, moon, planet]⟩ := rfl
  exact ModelDeclaration.wellFormed_of_build hbuild planet (by simp)

def phobos : Value := .entity "Moon" [("Name", .string "Phobos")]

/-- A note on a moon, in a member that is not mapped. -/
def notedPhobos : Value := .entity "Moon" [("Name", .string "Phobos"), ("Note", .string "dark")]

theorem detect_exact_mars :
    planet.WellFormed ∧ planet.NamesApart ∧ (orbiting [phobos] 687).DeepSorted ∧
      (orbiting [phobos] 688).DeepSorted ∧
      ((ChangeEntry.added planet (orbiting [phobos] 687)).accept.after
        [.detect, .assign (orbiting [phobos] 688)]).detect.state = .modified ∧
      (ChangeEntry.added planet (orbiting [phobos] 687)).accept.detect.state = .unchanged ∧
      ¬HoldsUnmapped planet (orbiting [phobos] 687) := by
  have hphobos : Value.SortedItems [phobos] :=
    ⟨⟨List.pairwise_singleton _ _, trivial, trivial⟩, trivial⟩
  have hstored := deepSorted_orbiting hphobos 687
  have hlater := deepSorted_orbiting hphobos 688
  obtain ⟨hdetect, hright⟩ := detect_exact wellFormed_planet namesApart_planet hstored
    (.accepted (e := .added planet (orbiting [phobos] 687)) rfl rfl (.inl rfl))
  refine ⟨wellFormed_planet, namesApart_planet, hstored, hlater, ?_, rfl, (hright _ rfl).1 rfl⟩
  refine (hdetect [.detect, .assign (orbiting [phobos] 688)] (by simp) (by simp) hlater).2.2 (.inl ?_)
  have horbit : ChangedAt orbit ⟨"Orbit", [("Days", .int32 687)]⟩ ⟨"Orbit", [("Days", .int32 688)]⟩
      ["days"] :=
    .property (p := { Property.plain "Days" (.scalar .int32) with element := "days" })
      (List.mem_singleton_self _) rfl
  exact ⟨["orbit", "days"], .navigation (n := ⟨"Orbit", "orbit", orbit, none, true⟩)
    (List.mem_cons_of_mem _ List.mem_cons_self) (.inside rfl rfl rfl horbit)⟩

/-- A note on a moon of the list counts as a change from the start, though none is ever stored. -/
theorem detect_notices_note :
    systems.build = .ok ⟨[orbit, moon, planet]⟩ ∧ planet.NamesApart ∧
      (orbiting [notedPhobos] 687).DeepSorted ∧
      planet.encode (orbiting [notedPhobos] 687) = planet.encode (orbiting [phobos] 687) ∧
      (¬∃ path, ChangedAt planet (planet.snapshot (orbiting [notedPhobos] 687))
        (planet.snapshot (orbiting [notedPhobos] 687)) path) ∧
      planet.keyChanged (orbiting [notedPhobos] 687) (orbiting [notedPhobos] 687) = false ∧
      (ChangeEntry.unchanged planet (orbiting [notedPhobos] 687)).detect.state = .modified ∧
      (ChangeEntry.added planet (orbiting [notedPhobos] 687)).accept.detect.state = .modified := by
  have hnoted : Value.SortedItems [notedPhobos] :=
    ⟨⟨by decide, trivial, trivial, trivial⟩, trivial⟩
  exact ⟨rfl, namesApart_planet, deepSorted_orbiting hnoted 687, rfl,
    wellFormed_planet.not_changedAt_snapshot (e := orbiting [notedPhobos] 687) namesApart_planet rfl,
    rfl, rfl, rfl⟩

end ChangeEntry

end DocMapping
