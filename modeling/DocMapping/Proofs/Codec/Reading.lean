import DocMapping.Proofs.Codec.RoundTrip

/-!
# Members that Were Read

Reading a document sets one member of the entity after the other.  Where members have names of
their own, every one of them keeps the value that was read for it, and so the entity tells what was
found in the document: at the path of every property, and in the element of every navigation.
-/

namespace DocMapping

/-! ## One member after the other -/

namespace Entity

/-- Members that are set one after the other keep their values if they have names of their own. -/
theorem foldlM_set_ok {α : Type} {name : α → String} {read : α → Outcome Value} {items : List α}
    {start e : Entity}
    (h : items.foldlM (fun e item ↦ (read item).map (e.set (name item))) start = .ok e) :
    (∀ member ∉ items.map name, e.get? member = start.get? member) ∧
      ((items.map name).Nodup → ∀ item ∈ items, read item = .ok (e.value (name item))) := by
  induction items generalizing start with
  | nil =>
    cases h
    exact ⟨fun _ _ ↦ rfl, fun _ _ hitem ↦ (by cases hitem)⟩
  | cons item rest ih =>
    obtain ⟨next, hnext, hrest⟩ := Outcome.bind_eq_ok.1 h
    obtain ⟨value, hvalue, rfl⟩ := Outcome.map_eq_ok.1 hnext
    obtain ⟨hkept, hread⟩ := ih hrest
    rw [List.map_cons, List.nodup_cons, List.forall_mem_cons]
    refine ⟨fun member hmember ↦ ?_, fun hnames ↦ ⟨?_, hread hnames.2⟩⟩
    · rw [List.mem_cons, not_or] at hmember
      rw [hkept member hmember.2, get?_set, if_neg hmember.1]
    · rw [hvalue, Entity.value, hkept _ hnames.1, get?_set, if_pos rfl]
      rfl

end Entity

namespace EntityType

/-- Members are told apart by their names, also those of owned entities. -/
inductive NamesApart : EntityType → Prop
  | mk {t : EntityType} (distinct : t.members.Nodup)
      (targets : ∀ n ∈ t.navigations, NamesApart n.target) : NamesApart t

variable {t : EntityType} {e : Entity} {document : Document}

theorem NamesApart.distinct (h : t.NamesApart) : t.members.Nodup := by
  cases h
  assumption

theorem NamesApart.targets (h : t.NamesApart) : ∀ n ∈ t.navigations, n.target.NamesApart := by
  cases h
  assumption

theorem elementPath_ne_nil (t : EntityType) (p : Property) : t.elementPath p ≠ [] := by
  unfold elementPath
  split <;> simp

/-- What is read for a property. -/
def readProperty (t : EntityType) (document : Document) (p : Property) : Outcome Value :=
  match document.lookup (t.elementPath p) with
  | some stored => p.decode stored
  | none =>
    if p.nullable then .ok .null
    else .error (.missingElement t.name (Text.dotted (t.elementPath p)))

/-- What is read for a navigation. -/
def readNavigation (t : EntityType) (document : Document) (n : Navigation EntityType) :
    Outcome Value :=
  match document.get? n.element with
  | some stored => decodeNavigation n stored
  | none => if n.nullable then .ok .null else .error (.missingElement t.name n.element)

theorem decodeProperties_eq (t : EntityType) (document : Document) (properties : List Property)
    (start : Entity) : t.decodeProperties document properties start =
      properties.foldlM (fun e p ↦ (t.readProperty document p).map (e.set p.name)) start := by
  induction properties generalizing start with
  | nil => rfl
  | cons p rest ih =>
    rw [List.foldlM_cons, decodeProperties, readProperty]
    dsimp only
    cases document.lookup (t.elementPath p) with
    | none =>
      cases p.nullable with
      | true => exact ih _
      | false => rfl
    | some stored =>
      dsimp only
      cases p.decode stored with
      | error fault => rfl
      | ok value => exact ih _

theorem decodeNavigations_eq (t : EntityType) (document : Document)
    (navigations : List (Navigation EntityType)) (start : Entity) :
    decodeNavigations t.name document navigations start =
      navigations.foldlM (fun e n ↦ (t.readNavigation document n).map (e.set n.name)) start := by
  induction navigations generalizing start with
  | nil =>
    rw [decodeNavigations]
    rfl
  | cons n rest ih =>
    rw [List.foldlM_cons, decodeNavigations, readNavigation]
    cases document.get? n.element with
    | none =>
      cases n.nullable with
      | true => exact ih _
      | false => rfl
    | some stored =>
      dsimp only
      cases decodeNavigation n stored with
      | error fault => rfl
      | ok value => exact ih _

/-- An entity that was read holds what was read for each of its members. -/
theorem value_of_decode (hnames : t.members.Nodup) (h : t.decode document = .ok e) :
    (∀ p ∈ t.properties, t.readProperty document p = .ok (e.value p.name)) ∧
      ∀ n ∈ t.navigations, t.readNavigation document n = .ok (e.value n.name) := by
  rw [decode_eq] at h
  obtain ⟨between, hbetween, h⟩ := Outcome.bind_eq_ok.1 h
  rw [decodeProperties_eq] at hbetween
  rw [decodeNavigations_eq] at h
  obtain ⟨hproperties, hnavigations, hapart⟩ := List.nodup_append.1 hnames
  obtain ⟨-, hread⟩ := Entity.foldlM_set_ok hbetween
  obtain ⟨hkept, howned⟩ := Entity.foldlM_set_ok h
  refine ⟨fun p hp ↦ ?_, howned hnavigations⟩
  have hname : p.name ∉ t.navigations.map Navigation.name := fun hmem ↦
    hapart _ (List.mem_map_of_mem hp) _ hmem rfl
  rw [hread hproperties p hp, Entity.value, Entity.value, hkept _ hname]

/-! ## Owned entities -/

/-- What a navigation to a single owned entity was read from. -/
theorem decodeNavigation_single {n : Navigation EntityType} (hsingle : n.container = none)
    {stored : Bson} {value : Value} (h : decodeNavigation n stored = .ok value) :
    (stored = .null ∧ value = .null) ∨ ∃ owned inner, stored = .document owned ∧
      n.target.decode owned = .ok inner ∧ value = inner.toValue := by
  obtain ⟨name, element, target, container, nullable⟩ := n
  cases hsingle
  unfold decodeNavigation at h
  split at h
  · cases h
    exact .inl ⟨rfl, rfl⟩
  · next owned _ =>
    obtain ⟨inner, hinner, rfl⟩ := Outcome.map_eq_ok.1 h
    exact .inr ⟨owned, inner, rfl, hinner, rfl⟩
  · next hcontainer => cases hcontainer
  · cases h

/-- What a navigation to a collection of owned entities was read from. -/
theorem decodeNavigation_collection {n : Navigation EntityType} {container : Container}
    (hcollection : n.container = some container) {stored : Bson} {value : Value}
    (h : decodeNavigation n stored = .ok value) :
    (stored = .null ∧ value = .null) ∨ ∃ items values, stored = .array items ∧
      List.Forall₂ (fun item value ↦ ∃ owned inner, item = Bson.document owned ∧
        n.target.decode owned = .ok inner ∧ value = inner.toValue) items values ∧
      value = .collection container values := by
  obtain ⟨name, element, target, _, nullable⟩ := n
  cases hcollection
  unfold decodeNavigation at h
  split at h
  · cases h
    exact .inl ⟨rfl, rfl⟩
  · next hcontainer => cases hcontainer
  · next items found hcontainer =>
    cases hcontainer
    obtain ⟨values, hvalues, rfl⟩ := Outcome.map_eq_ok.1 h
    refine .inr ⟨items, values, rfl, (Outcome.mapM_eq_ok.1 hvalues).imp fun item value hitem ↦ ?_,
      rfl⟩
    cases item with
    | document owned =>
      obtain ⟨inner, hinner, rfl⟩ := Outcome.map_eq_ok.1 hitem
      exact ⟨owned, inner, rfl, hinner, rfl⟩
    | _ => cases hitem
  · cases h

end EntityType

end DocMapping
