import DocMapping.Evaluation
import DocMapping.Planning.Target
import DocMapping.Proofs.Codec.Document
import DocMapping.Proofs.Codec.Natural

/-!
# Members and their Fields

A chain of members is read in two ways.  Evaluated at an entity it goes through owned entities to a
value; planned, it becomes a path.  In the document of the entity the path leads to the stored form
of the value.
-/

namespace DocMapping

/-- From the argument `x`, an entity `e` of the type `t`, the expression leads through single owned
entities to an entity of another type.  No navigation on the way is null. -/
inductive Reaches (x : String) (t : EntityType) (e : Entity) :
    Expression → EntityType → Entity → Prop
  | argument : Reaches x t e (.parameter x) t e
  | owned {target : Expression} {owner : EntityType} {current inner : Entity} {name : String}
    {n : Navigation EntityType} (hreaches : Reaches x t e target owner current)
    (hproperty : owner.property? name = none) (hnavigation : owner.navigation? name = some n)
    (hsingle : n.container = none) (hvalue : current.value name = inner.toValue) :
    Reaches x t e (.member target name) n.target inner

/-- The expression is a property outside of the key, stored in its natural form, and the value that
it has is not null. -/
inductive ReadsProperty (x : String) (t : EntityType) (e : Entity) :
    Expression → Property → Value → Prop
  | mk {target : Expression} {owner : EntityType} {current : Entity} {name : String} {p : Property}
    (hreaches : Reaches x t e target owner current) (hproperty : owner.property? name = some p)
    (hkey : owner.isKey name = false) (hnatural : p.representation = .natural)
    (hvalue : current.value name ≠ .null) :
    ReadsProperty x t e (.member target name) p (current.value name)

/-- The expression is a navigation to owned entities, which may be null. -/
inductive ReadsNavigation (x : String) (t : EntityType) (e : Entity) : Expression → Value → Prop
  | mk {target : Expression} {owner : EntityType} {current : Entity} {name : String}
    {n : Navigation EntityType} (hreaches : Reaches x t e target owner current)
    (hproperty : owner.property? name = none) (hnavigation : owner.navigation? name = some n) :
    ReadsNavigation x t e (.member target name) (current.value name)

variable {x : String} {t : EntityType} {e : Entity} {document : Document} {parameters : Parameters}

/-! ## Entities -/

theorem EntityType.target_single {t : EntityType} {name : String} {n : Navigation EntityType}
    (hproperty : t.property? name = none) (hnavigation : t.navigation? name = some n)
    (hsingle : n.container = none) (path : List String) :
    t.target path name = .ok (.entity (path ++ [n.element]) n.target n.nullable) := by
  unfold target
  rw [hproperty, hnavigation]
  dsimp only
  rw [hsingle]

theorem EntityType.target_collection {t : EntityType} {name : String} {n : Navigation EntityType}
    (hproperty : t.property? name = none) (hnavigation : t.navigation? name = some n)
    {container : Container} (hcollection : n.container = some container) (path : List String) :
    t.target path name = .ok (.ownedCollection (path ++ [n.element]) n.target container) := by
  unfold target
  rw [hproperty, hnavigation]
  dsimp only
  rw [hcollection]

theorem EntityType.navigation?_name {t : EntityType} {name : String} {n : Navigation EntityType}
    (h : t.navigation? name = some n) : n.name = name := by
  simpa using List.find?_some h

theorem EntityType.property?_name {t : EntityType} {name : String} {p : Property}
    (h : t.property? name = some p) : p.name = name := by
  simpa using List.find?_some h

/-- The expression is planned as a path of owned entities, at whose end lies the document of the
entity that it evaluates to. -/
structure IsLocated (x : String) (t : EntityType) (e : Entity) (document : Document)
    (parameters : Parameters) (target : Expression) (owner : EntityType) (current : Entity)
    (path : List String) (nested : Document) : Prop where
  resolve : ∃ nullable, (⟨x, t⟩ : Scope).resolve target = .ok (some (.entity path owner nullable))
  evaluate : target.evaluate parameters x e.toValue = .ok current.toValue
  wellFormed : owner.WellFormed
  encode : owner.encode current = .ok nested
  segments : ∀ part ∈ path, Text.IsSegment part
  descend : document.descend path = some nested

namespace IsLocated

variable {target : Expression} {owner : EntityType} {current : Entity} {path : List String}
  {nested : Document}

theorem evaluate_member (h : IsLocated x t e document parameters target owner current path nested)
    (name : String) :
    (Expression.member target name).evaluate parameters x e.toValue = .ok (current.value name) := by
  rw [Expression.evaluate, h.evaluate]
  rfl

theorem resolve_member (h : IsLocated x t e document parameters target owner current path nested)
    (name : String) :
    (⟨x, t⟩ : Scope).resolve (.member target name) = (owner.target path name).map some := by
  obtain ⟨nullable, hresolve⟩ := h.resolve
  rw [Scope.resolve, hresolve]
  rfl

/-- A field of the entity is found in the whole document. -/
theorem resolve_element (h : IsLocated x t e document parameters target owner current path nested)
    {element : String} (helement : Text.IsSegment element) :
    document.resolve (Text.dotted (path ++ [element])) = nested.get? element := by
  have hsegments : ∀ part ∈ path ++ [element], Text.IsSegment part :=
    List.forall_mem_append.2 ⟨h.segments, List.forall_mem_singleton.2 helement⟩
  rw [Document.resolve, Text.segments_dotted (by simp) hsegments,
    Document.lookup_append document path (by simp), h.descend]
  rfl

end IsLocated

theorem Reaches.isLocated {target : Expression} {owner : EntityType} {current : Entity}
    (h : Reaches x t e target owner current) (hwell : t.WellFormed)
    (hdocument : t.encode e = .ok document) (parameters : Parameters) :
    ∃ path nested, IsLocated x t e document parameters target owner current path nested := by
  induction h with
  | argument =>
    refine ⟨[], document, ⟨false, ?_⟩, ?_, hwell, hdocument, by simp, rfl⟩
    · rw [Scope.resolve, if_pos rfl]
    · rw [Expression.evaluate, if_pos rfl]
  | @owned target owner current inner name n _ hproperty hnavigation hsingle hvalue ih =>
    obtain ⟨path, nested, h⟩ := ih
    have hname := EntityType.navigation?_name hnavigation
    have hn : n ∈ owner.navigations := List.mem_of_find?_eq_some hnavigation
    have hsegment := EntityType.isSegment_of_isElementName
      (h.wellFormed.valid _ (EntityType.element_mem_of_navigation hn))
    have hentity : (current.value n.name).entity? = some inner := by
      rw [hname, hvalue]
      rfl
    obtain ⟨stored, hstored, hget⟩ := (h.wellFormed.encoded h.encode).navigation n hn
    rw [EntityType.encodeNavigation_entity hsingle hentity] at hstored
    obtain ⟨below, hbelow, rfl⟩ := Outcome.map_eq_ok.1 hstored
    refine ⟨path ++ [n.element], below, ⟨n.nullable, ?_⟩, ?_, h.wellFormed.targets n hn, hbelow, ?_,
      ?_⟩
    · rw [h.resolve_member, EntityType.target_single hproperty hnavigation hsingle]
      rfl
    · rw [h.evaluate_member, hvalue]
    · exact List.forall_mem_append.2 ⟨h.segments, List.forall_mem_singleton.2 hsegment⟩
    · rw [Document.descend_concat, h.descend]
      exact Document.nested?_of_get? hget

/-! ## Members -/

theorem ReadsProperty.natural {m : Expression} {p : Property} {value : Value}
    (h : ReadsProperty x t e m p value) : p.representation = .natural ∧ value ≠ .null := by
  obtain ⟨-, -, -, hnatural, hvalue⟩ := h
  exact ⟨hnatural, hvalue⟩

/-- The document holds what a property stores where its path leads. -/
theorem ReadsProperty.resolve {m : Expression} {p : Property} {value : Value}
    (h : ReadsProperty x t e m p value) (hwell : t.WellFormed)
    (hdocument : t.encode e = .ok document) (parameters : Parameters) :
    ∃ path stored, (⟨x, t⟩ : Scope).resolve m = .ok (some (.property path p)) ∧
      m.evaluate parameters x e.toValue = .ok value ∧ p.encode value = .ok stored ∧
      document.resolve (Text.dotted path) = some stored := by
  obtain ⟨hreaches, hproperty, hkey, -, -⟩ := h
  rename_i target owner current name
  obtain rfl := EntityType.property?_name hproperty
  obtain ⟨path, nested, hlocated⟩ := hreaches.isLocated hwell hdocument parameters
  have hstored : p ∈ owner.storedProperties :=
    EntityType.mem_storedProperties.2 ⟨List.mem_of_find?_eq_some hproperty, .inr hkey⟩
  have hsegment := EntityType.isSegment_of_isElementName
    (hlocated.wellFormed.valid _ (EntityType.element_mem_of_stored hstored))
  obtain ⟨stored, hencode, hget⟩ := (hlocated.wellFormed.encoded hlocated.encode).property p hstored
  refine ⟨path ++ [p.element], stored, ?_, hlocated.evaluate_member p.name, hencode, ?_⟩
  · rw [hlocated.resolve_member, EntityType.target, hproperty]
    dsimp only
    rw [EntityType.elementPath, hkey, Bool.and_false, if_neg (by simp)]
    rfl
  · rw [hlocated.resolve_element hsegment, hget]

/-- What a navigation is stored as equals null exactly if it is null. -/
theorem EntityType.matchesValue_null {n : Navigation EntityType} {value : Value} {stored : Bson}
    (h : encodeNavigation n value = .ok stored) :
    stored.matchesValue .null = value.structuralEq .null := by
  obtain ⟨name, element, target, container, nullable⟩ := n
  unfold encodeNavigation at h
  split at h
  · cases h
    rfl
  · obtain ⟨owned, -, rfl⟩ := Outcome.map_eq_ok.1 h
    rfl
  · obtain ⟨items, -, rfl⟩ := Outcome.map_eq_ok.1 h
    rfl
  · cases h

/-- The document holds what a navigation stores where its path leads. -/
theorem ReadsNavigation.resolve {m : Expression} {value : Value} (h : ReadsNavigation x t e m value)
    (hwell : t.WellFormed) (hdocument : t.encode e = .ok document) (parameters : Parameters) :
    ∃ target stored, (⟨x, t⟩ : Scope).resolve m = .ok (some target) ∧
      (∀ path p, target ≠ .property path p) ∧ m.evaluate parameters x e.toValue = .ok value ∧
      document.resolve (Text.dotted target.path) = some stored ∧
      stored.matchesValue .null = value.structuralEq .null := by
  obtain ⟨hreaches, hproperty, hnavigation⟩ := h
  rename_i expression owner current name n
  obtain rfl := EntityType.navigation?_name hnavigation
  obtain ⟨path, nested, hlocated⟩ := hreaches.isLocated hwell hdocument parameters
  have hn : n ∈ owner.navigations := List.mem_of_find?_eq_some hnavigation
  have hsegment := EntityType.isSegment_of_isElementName
    (hlocated.wellFormed.valid _ (EntityType.element_mem_of_navigation hn))
  obtain ⟨stored, hencode, hget⟩ := (hlocated.wellFormed.encoded hlocated.encode).navigation n hn
  have hresolve := hlocated.resolve_member n.name
  have hfound := (hlocated.resolve_element hsegment).trans hget
  have hnull := EntityType.matchesValue_null hencode
  cases hcontainer : n.container with
  | none =>
    rw [EntityType.target_single hproperty hnavigation hcontainer] at hresolve
    exact ⟨_, stored, hresolve, by simp, hlocated.evaluate_member n.name, hfound, hnull⟩
  | some container =>
    rw [EntityType.target_collection hproperty hnavigation hcontainer] at hresolve
    exact ⟨_, stored, hresolve, by simp, hlocated.evaluate_member n.name, hfound, hnull⟩

end DocMapping
