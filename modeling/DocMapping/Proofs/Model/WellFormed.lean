import DocMapping.Proofs.Model.Construction

/-!
# Well-Formed Entity Types

What a model promises of its entity types once it has been built: elements have valid names of
their own at every level, keys are properties that hold scalars, root types have keys, and navigations
lead to owned types.  Every type takes after the declaration of its name.
-/

namespace DocMapping

/-- Elements of one document are told apart, also inside of owned entities. -/
inductive EntityType.WellFormed : EntityType → Prop
  | mk {t : EntityType} (distinct : t.elements.Nodup)
      (valid : ∀ element ∈ t.elements, isElementName element = true)
      (keys : ∀ p ∈ t.keys, p ∈ t.properties)
      (owned : ∀ n ∈ t.navigations, n.target.isOwned = true)
      (targets : ∀ n ∈ t.navigations, WellFormed n.target) : WellFormed t

namespace EntityType.WellFormed

variable {t : EntityType} (h : t.WellFormed)

include h

theorem distinct : t.elements.Nodup := by
  cases h
  assumption

theorem valid : ∀ element ∈ t.elements, isElementName element = true := by
  cases h
  assumption

theorem keys : ∀ p ∈ t.keys, p ∈ t.properties := by
  cases h
  assumption

theorem owned : ∀ n ∈ t.navigations, n.target.isOwned = true := by
  cases h
  assumption

theorem targets : ∀ n ∈ t.navigations, n.target.WellFormed := by
  cases h
  assumption

end EntityType.WellFormed

/-- Keys are scalars, and root types have some. -/
structure EntityType.WellKeyed (t : EntityType) : Prop where
  scalar : ∀ p ∈ t.keys, p.isCollection = false
  nonempty : t.isOwned = false → t.keys ≠ []

/-! ## Checks -/

theorem EntityType.checkElements_ok {entity : String} {seen elements : List String}
    (h : checkElements entity seen elements = .ok ()) :
    elements.Nodup ∧ (∀ element ∈ elements, element ∉ seen) ∧
      ∀ element ∈ elements, isElementName element = true := by
  induction elements generalizing seen with
  | nil => simp
  | cons element rest ih =>
    unfold checkElements at h
    split at h
    · cases h
    · next hvalid =>
      split at h
      · cases h
      · next hseen =>
        obtain ⟨hrest, hunseen, hnames⟩ := ih h
        simp only [List.nodup_cons, List.forall_mem_cons]
        refine ⟨⟨fun hmem ↦ hunseen element hmem List.mem_cons_self, hrest⟩,
          ⟨by simpa using hseen, fun other hother hmem ↦ ?_⟩, by simpa using hvalid, hnames⟩
        exact hunseen other hother (List.mem_cons_of_mem element hmem)

namespace EntityDeclaration

variable {d : EntityDeclaration} {naming : ElementNaming}

theorem keyPosition_ok {key : String} {position : Nat} (h : d.keyPosition key = .ok position) :
    ∃ p, d.properties[position]? = some p ∧ p.kind.isCollection = false := by
  unfold keyPosition at h
  split at h
  · cases h
  · next p found hfound =>
    split at h
    · cases h
    · split at h
      · cases h
      · next hscalar =>
        cases h
        exact ⟨p, List.mk_mem_zipIdx_iff_getElem?.1 (List.mem_of_find?_eq_some hfound),
          by simpa using hscalar⟩

theorem buildProperty_kind {isKey : Bool} {p : PropertyDeclaration} {built : Property}
    (h : d.buildProperty naming isKey p = .ok built) : built.kind = p.kind := by
  unfold buildProperty at h
  dsimp only at h
  split at h
  · obtain ⟨generator, -, h⟩ := Outcome.bind_eq_ok.1 h
    cases h
    rfl
  · cases h

/-- The position of a key is that of a property with a scalar. -/
theorem exists_key {positions : List Nat} {properties : List Property}
    (hpositions : d.keys.mapM d.keyPosition = .ok positions)
    (hproperties : (d.properties.zipIdx.mapM fun (p, position) ↦
      d.buildProperty naming (positions.contains position) p) = .ok properties)
    {position : Nat} (h : position ∈ positions) :
    ∃ p, properties[position]? = some p ∧ p.isCollection = false := by
  obtain ⟨key, -, hkey⟩ := Outcome.exists_of_mapM hpositions h
  obtain ⟨declared, hdeclared, hscalar⟩ := keyPosition_ok hkey
  have hindexed : d.properties.zipIdx[position]? = some (declared, position) := by
    rw [List.getElem?_zipIdx, hdeclared, Nat.zero_add]
    rfl
  obtain ⟨p, hp, hbuilt⟩ := Outcome.exists_getElem? (Outcome.mapM_eq_ok.1 hproperties) hindexed
  refine ⟨p, hp, ?_⟩
  rw [Property.isCollection, buildProperty_kind hbuilt, hscalar]

theorem buildProperties_keys {properties keys : List Property}
    (h : d.buildProperties naming = .ok (properties, keys)) :
    (∀ p ∈ keys, p ∈ properties ∧ p.isCollection = false) ∧ (d.owned = false → keys ≠ []) := by
  unfold buildProperties at h
  dsimp only at h
  split at h
  · cases h
  next hdeclared =>
  obtain ⟨positions, hpositions, h⟩ := Outcome.bind_eq_ok.1 h
  obtain ⟨built, hbuilt, h⟩ := Outcome.bind_eq_ok.1 h
  cases h
  have hkey : ∀ position ∈ positions,
      ∃ p, properties[position]? = some p ∧ p.isCollection = false :=
    fun _ ↦ exists_key hpositions hbuilt
  constructor
  · intro p hp
    obtain ⟨position, hmem, hposition⟩ := List.mem_filterMap.1 hp
    obtain ⟨q, hq, hscalar⟩ := hkey position hmem
    cases hposition.symm.trans hq
    exact ⟨List.mem_of_getElem? hposition, hscalar⟩
  · intro hroot hnone
    have hlength : d.keys.length = (positions.filterMap (properties[·]?)).length :=
      calc
        d.keys.length = positions.length := (Outcome.mapM_eq_ok.1 hpositions).length_eq
        _ = _ := (List.filterMap_length_eq_length.2 fun position hmem ↦ by
          obtain ⟨p, hp, -⟩ := hkey position hmem
          rw [hp]
          rfl).symm
    rw [hnone, List.length_nil, List.length_eq_zero_iff] at hlength
    rw [hroot, hlength] at hdeclared
    exact hdeclared rfl

end EntityDeclaration

/-! ## Building -/

namespace ModelDeclaration

variable {m : ModelDeclaration}

/-- A type that was built from a declaration. -/
structure IsBuilt (d : EntityDeclaration) (t : EntityType) : Prop where
  wellFormed : t.WellFormed
  wellKeyed : t.WellKeyed
  name : t.name = d.name
  owned : t.isOwned = d.owned

theorem isOwned_collectionName (d : EntityDeclaration) : d.collectionName?.isNone = d.owned := by
  unfold EntityDeclaration.collectionName?
  cases d.owned <;> rfl

open Construction

theorem ensures_buildNavigation {construct : EntityDeclaration → Construction EntityType}
    (h : ∀ d ∈ m.entities, Ensures (m.Finished IsBuilt) (construct d) (IsBuilt d))
    (owner : String) (n : NavigationDeclaration) :
    Ensures (m.Finished IsBuilt) (m.buildNavigation construct owner n) fun n ↦
      n.target.isOwned = true ∧ n.target.WellFormed := by
  unfold buildNavigation
  apply Ensures.bind (.lift fun d hd ↦ target_ok hd)
  intro d hd
  apply Ensures.bind (h d hd.1)
  intro t ht
  exact .pure ⟨ht.owned.trans hd.2, ht.wellFormed⟩

theorem ensures_isBuilt {construct : EntityDeclaration → Construction EntityType}
    (h : ∀ d ∈ m.entities, Ensures (m.Finished IsBuilt) (construct d) (IsBuilt d))
    (d : EntityDeclaration) :
    Ensures (m.Finished IsBuilt) (m.describe construct d) (IsBuilt d) := by
  apply Ensures.bind (.lift fun _ hproperties ↦ d.buildProperties_keys hproperties)
  rintro ⟨properties, keys⟩ ⟨hkeys, hnonempty⟩
  apply Ensures.bind (.mapM fun n _ ↦ ensures_buildNavigation h d.name n)
  intro navigations hnavigations
  apply Ensures.bind (.lift fun _ hchecked ↦ EntityType.checkElements_ok hchecked)
  rintro - ⟨hdistinct, -, hvalid⟩
  have hnavigation : ∀ n ∈ navigations, n.target.isOwned = true ∧ n.target.WellFormed := by
    intro n hn
    obtain ⟨_, -, htarget⟩ := Outcome.exists_left hnavigations hn
    exact htarget
  have howned := isOwned_collectionName d
  exact .pure
    { wellFormed := .mk hdistinct hvalid (fun p hp ↦ (hkeys p hp).1)
        (fun n hn ↦ (hnavigation n hn).1) fun n hn ↦ (hnavigation n hn).2
      wellKeyed := ⟨fun p hp ↦ (hkeys p hp).2, fun hroot ↦ hnonempty (howned.symm.trans hroot)⟩
      name := rfl
      owned := howned }

/-- The types of a model take after its declarations, in the same order. -/
theorem isBuilt_of_build {model : Model} (h : m.build = .ok model) :
    List.Forall₂ IsBuilt m.entities model.entities :=
  forall₂_of_build h (fun _ _ ht ↦ ht.name) fun _ hconstruct d _ ↦ ensures_isBuilt hconstruct d

/-- All entity types of a model are well-formed. -/
theorem wellFormed_of_build {model : Model} (h : m.build = .ok model) :
    ∀ t ∈ model.entities, t.WellFormed := by
  intro t ht
  obtain ⟨d, -, hbuilt⟩ := Outcome.exists_left (isBuilt_of_build h) ht
  exact hbuilt.wellFormed

theorem wellKeyed_of_build {model : Model} (h : m.build = .ok model) :
    ∀ t ∈ model.entities, t.WellKeyed := by
  intro t ht
  obtain ⟨d, -, hbuilt⟩ := Outcome.exists_left (isBuilt_of_build h) ht
  exact hbuilt.wellKeyed

/-- All entity types of a model are found by their names. -/
theorem entity?_of_build {model : Model} (h : m.build = .ok model) :
    ∀ t ∈ model.entities, model.entity? t.name = some t := by
  intro t ht
  have hnames := names_of_build h
  rw [← Outcome.map_eq_map (isBuilt_of_build h) fun d t ht ↦ ht.name] at hnames
  have hsome : (model.entity? t.name).isSome = true :=
    List.find?_isSome.2 ⟨t, ht, beq_self_eq_true t.name⟩
  obtain ⟨found, hfound⟩ := Option.isSome_iff_exists.1 hsome
  have hname : found.name = t.name := by simpa using List.find?_some hfound
  rw [hfound, List.inj_on_of_nodup_map hnames (List.mem_of_find?_eq_some hfound) ht hname]

end ModelDeclaration

end DocMapping
