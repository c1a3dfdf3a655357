import DocMapping.Codec.Document
import DocMapping.Proofs.Bson.Paths
import DocMapping.Proofs.Codec.Property
import DocMapping.Proofs.Model.WellFormed
import DocMapping.Proofs.Text.Dotted

/-!
# Stored Forms of Entities

Where the document of an entity holds what.  In well-formed types whose key is stored under `_id`,
no element of a document overwrites another, so that every key, property and owned value is found at
its own path.  Parts of a composite key may overwrite each other inside of it.
-/

namespace DocMapping.EntityType

/-- The key is all that is stored under `_id`, and its parts can be told apart. -/
def KeyUnderId (t : EntityType) : Prop :=
  if t.hasCompositeKey then
    (t.keys.map Property.element).Nodup ∧ ∀ p ∈ t.keys, Text.contains p.element "." = false
  else ∀ p ∈ t.keys, p.element = idElement

/-- The key is stored under `_id`. -/
def KeyHasId (t : EntityType) : Prop :=
  t.hasCompositeKey = false → ∀ p ∈ t.keys, p.element = idElement

/-- Parts of a composite key that have one name are the same. -/
def KeyPartsApart (t : EntityType) : Prop :=
  t.hasCompositeKey = true → ∀ p ∈ t.keys, ∀ q ∈ t.keys, p.element = q.element → p = q

theorem KeyUnderId.keyHasId {t : EntityType} (h : t.KeyUnderId) : t.KeyHasId := by
  intro hsingle
  unfold KeyUnderId at h
  rwa [hsingle, if_neg (by simp)] at h

theorem KeyUnderId.keyPartsApart {t : EntityType} (h : t.KeyUnderId) : t.KeyPartsApart := by
  intro hcomposite p hp q hq helement
  unfold KeyUnderId at h
  rw [hcomposite, if_pos rfl] at h
  exact List.inj_on_of_nodup_map h.1 hp hq helement

/-- Every element of the documents of the type has a place of its own, its key as a whole. -/
structure Identified (t : EntityType) : Prop where
  wellFormed : t.WellFormed
  keyHasId : t.isOwned = false → t.KeyHasId

/-- Every element of the documents of the type has a place of its own. -/
structure Addressable (t : EntityType) : Prop where
  wellFormed : t.WellFormed
  keyUnderId : t.isOwned = false → t.KeyUnderId

theorem Addressable.identified {t : EntityType} (h : t.Addressable) : t.Identified :=
  ⟨h.wellFormed, fun hroot ↦ (h.keyUnderId hroot).keyHasId⟩

/-! ## Elements -/

theorem isSegment_of_isElementName {element : String} (h : isElementName element = true) :
    Text.IsSegment element := by
  unfold isElementName at h
  simp only [Bool.not_eq_true', Bool.or_eq_false_iff] at h
  intro hpoint
  rw [Text.contains_point.2 hpoint] at h
  simp at h

theorem isSegment_idElement : Text.IsSegment idElement := by
  unfold Text.IsSegment
  decide

/-- The names of the elements of a document of the type behind those of its key, in order. -/
def bodyNames (t : EntityType) : List String :=
  t.discriminator.toList.map (·.element) ++ t.storedProperties.map (·.element) ++
    t.navigations.map (·.element)

/-- The names of the elements of a document of the type, in order. -/
def storedNames (t : EntityType) : List String :=
  (if t.isOwned then [] else [idElement]) ++ t.bodyNames

theorem isOwned_of_hasCompositeKey {t : EntityType} (h : t.hasCompositeKey = true) :
    t.isOwned = false := by
  unfold hasCompositeKey at h
  simp only [Bool.and_eq_true, Bool.not_eq_true'] at h
  exact h.1

theorem elements_of_not_composite {t : EntityType} (h : t.hasCompositeKey = false) :
    t.elements = t.properties.map (·.element) ++ t.navigations.map (·.element) ++
      t.discriminator.toList.map (·.element) := by
  unfold elements
  simp [h]

theorem elements_of_composite {t : EntityType} (h : t.hasCompositeKey = true) :
    t.elements = t.storedProperties.map (·.element) ++ t.navigations.map (·.element) ++
      t.discriminator.toList.map (·.element) ++ [idElement] := by
  unfold elements storedProperties
  simp [h, isOwned_of_hasCompositeKey h]

theorem isKey_of_mem {t : EntityType} {p : Property} (h : p ∈ t.keys) : t.isKey p.name = true := by
  unfold isKey
  rw [List.any_eq_true]
  exact ⟨p, h, beq_self_eq_true _⟩

theorem mem_storedProperties {t : EntityType} {p : Property} :
    p ∈ t.storedProperties ↔ p ∈ t.properties ∧ (t.isOwned = true ∨ t.isKey p.name = false) := by
  unfold storedProperties
  simp

theorem element_mem_of_stored {t : EntityType} {p : Property} (hp : p ∈ t.storedProperties) :
    p.element ∈ t.elements := by
  cases hcomposite : t.hasCompositeKey with
  | true =>
    rw [elements_of_composite hcomposite]
    simp only [List.mem_append]
    exact .inl (.inl (.inl (List.mem_map_of_mem hp)))
  | false =>
    rw [elements_of_not_composite hcomposite]
    simp only [List.mem_append]
    exact .inl (.inl (List.mem_map_of_mem (mem_storedProperties.1 hp).1))

theorem element_mem_of_navigation {t : EntityType} {n : Navigation EntityType}
    (hn : n ∈ t.navigations) : n.element ∈ t.elements := by
  unfold elements
  simp only [List.mem_append]
  exact .inl (.inl (.inr (List.mem_map_of_mem hn)))

/-- A discriminator lies where its element is. -/
theorem WellFormed.resolve_discriminator {t : EntityType} (h : t.WellFormed) {d : Discriminator}
    (hd : d ∈ t.discriminator) (document : Document) :
    document.resolve d.element = document.get? d.element := by
  have helement : d.element ∈ t.elements := by
    unfold elements
    simp [Option.mem_def.1 hd]
  rw [Document.resolve,
    Text.segments_of_isSegment (isSegment_of_isElementName (h.valid _ helement))]
  rfl

theorem WellFormed.nodup_bodyNames {t : EntityType} (h : t.WellFormed) : t.bodyNames.Nodup := by
  have hperm : t.bodyNames.Perm (t.storedProperties.map (·.element) ++
      t.navigations.map (·.element) ++ t.discriminator.toList.map (·.element)) := by
    unfold bodyNames
    rw [List.append_assoc]
    exact List.perm_append_comm
  have helements := h.distinct
  refine hperm.nodup_iff.2 ?_
  cases hcomposite : t.hasCompositeKey with
  | true =>
    rw [elements_of_composite hcomposite] at helements
    exact (List.nodup_append.1 helements).1
  | false =>
    rw [elements_of_not_composite hcomposite] at helements
    have hstored : t.storedProperties.Sublist t.properties := List.filter_sublist
    exact helements.sublist (((hstored.map _).append_right _).append_right _)

/-- Nothing but the key is stored under `_id`. -/
theorem Identified.idElement_notMem {t : EntityType} (h : t.Identified) (hroot : t.isOwned = false)
    (hkeys : t.keys ≠ []) : idElement ∉ t.bodyNames := by
  have helements := h.wellFormed.distinct
  unfold bodyNames
  simp only [List.mem_append, not_or]
  cases hcomposite : t.hasCompositeKey with
  | true =>
    rw [elements_of_composite hcomposite] at helements
    have hid := fun hmem ↦ (List.nodup_append.1 helements).2.2 _ hmem _ List.mem_cons_self rfl
    simp only [List.mem_append] at hid
    exact ⟨⟨fun hmem ↦ hid (.inr hmem), fun hmem ↦ hid (.inl (.inl hmem))⟩,
      fun hmem ↦ hid (.inl (.inr hmem))⟩
  | false =>
    obtain ⟨p, hp⟩ := List.exists_mem_of_ne_nil _ hkeys
    have hid := h.keyHasId hroot hcomposite p hp
    rw [elements_of_not_composite hcomposite, List.append_assoc] at helements
    obtain ⟨hproperties, -, happart⟩ := List.nodup_append.1 helements
    have hmem : idElement ∈ t.properties.map (·.element) :=
      List.mem_map.2 ⟨p, h.wellFormed.keys p hp, hid⟩
    refine ⟨⟨fun hother ↦ happart _ hmem _ (List.mem_append_right _ hother) rfl, fun hother ↦ ?_⟩,
      fun hother ↦ happart _ hmem _ (List.mem_append_left _ hother) rfl⟩
    obtain ⟨q, hq, helement⟩ := List.mem_map.1 hother
    have hstored := mem_storedProperties.1 hq
    have hsame : q = p := List.inj_on_of_nodup_map hproperties hstored.1 (h.wellFormed.keys p hp)
      (helement.trans hid.symm)
    have hkey := hstored.2
    rw [hsame, isKey_of_mem hp, hroot] at hkey
    simp at hkey

theorem Identified.nodup_storedNames {t : EntityType} (h : t.Identified)
    (hkeys : t.isOwned = false → t.keys ≠ []) : t.storedNames.Nodup := by
  unfold storedNames
  cases hroot : t.isOwned with
  | true => exact h.wellFormed.nodup_bodyNames
  | false =>
    exact List.nodup_cons.2 ⟨h.idElement_notMem hroot (hkeys hroot), h.wellFormed.nodup_bodyNames⟩

/-! ## Writing -/

theorem keyElements_eq (e : Entity) (properties : List Property) :
    keyElements e properties = properties.mapM fun p ↦
      (p.encode (e.value p.name)).map fun value ↦ (p.element, value) := by
  induction properties with
  | nil => rfl
  | cons p rest ih =>
    rw [keyElements, List.mapM_cons, ih]
    cases p.encode (e.value p.name) <;> rfl

theorem encodeNavigations_eq (e : Entity) (navigations : List (Navigation EntityType)) :
    encodeNavigations navigations e = navigations.mapM fun n ↦
      (encodeNavigation n (e.value n.name)).map fun value ↦ (n.element, value) := by
  induction navigations with
  | nil => rw [encodeNavigations]; rfl
  | cons n rest ih =>
    rw [encodeNavigations, List.mapM_cons, ih]
    cases encodeNavigation n (e.value n.name) <;> rfl

theorem encodeNavigation_entity {n : Navigation EntityType} (hsingle : n.container = none)
    {value : Value} {e : Entity} (hvalue : value.entity? = some e) :
    encodeNavigation n value = (n.target.encode e).map Bson.document := by
  obtain ⟨name, element, target, container, nullable⟩ := n
  cases hsingle
  cases value <;> cases hvalue
  rw [encodeNavigation]

/-- The elements of the key, with which the documents of root types begin. -/
def IsFront (t : EntityType) (e : Entity) (front : Document) : Prop :=
  if t.isOwned then front = []
  else ∃ key, t.keyValue e = .ok key ∧ front = [(idElement, key)]

theorem leadingElements_ok {t : EntityType} {e : Entity} {leading : Document}
    (h : t.leadingElements e = .ok leading) :
    ∃ front, t.IsFront e front ∧ leading =
      front ++ t.discriminator.toList.map fun d ↦ (d.element, .string d.value) := by
  unfold leadingElements at h
  unfold IsFront
  cases howned : t.isOwned with
  | true =>
    rw [howned] at h
    cases h
    exact ⟨[], rfl, rfl⟩
  | false =>
    rw [howned] at h
    obtain ⟨_, hkey, hleading⟩ := Outcome.bind_eq_ok.1 h
    obtain ⟨key, hvalue, rfl⟩ := Outcome.map_eq_ok.1 hkey
    cases hleading
    exact ⟨[(idElement, key)], ⟨key, hvalue, rfl⟩, rfl⟩

theorem encode_eq (t : EntityType) (e : Entity) :
    t.encode e = (do
      let leading ← t.leadingElements e
      let properties ← t.propertyElements e
      let owned ← encodeNavigations t.navigations e
      return Document.ofList (leading ++ properties ++ owned)) := by
  cases t
  rw [encode]

theorem encode_ok {t : EntityType} {e : Entity} {document : Document}
    (h : t.encode e = .ok document) : ∃ leading properties owned,
      t.leadingElements e = .ok leading ∧ t.propertyElements e = .ok properties ∧
      encodeNavigations t.navigations e = .ok owned ∧
      document = Document.ofList (leading ++ properties ++ owned) := by
  rw [encode_eq] at h
  obtain ⟨leading, hleading, h⟩ := Outcome.bind_eq_ok.1 h
  obtain ⟨properties, hproperties, h⟩ := Outcome.bind_eq_ok.1 h
  obtain ⟨owned, howned, h⟩ := Outcome.bind_eq_ok.1 h
  exact ⟨leading, properties, owned, hleading, hproperties, howned, (Except.ok.inj h).symm⟩

theorem keys_ne_nil_of_keyValue {t : EntityType} {e : Entity} {key : Bson}
    (h : t.keyValue e = .ok key) : t.keys ≠ [] := by
  intro hnil
  simp [keyValue, hasCompositeKey, hnil] at h

/-- The elements of a document behind its key, each with what it holds of an entity. -/
structure IsBody (t : EntityType) (e : Entity) (body : Document) : Prop where
  names : body.names = t.bodyNames
  discriminator : ∀ d ∈ t.discriminator, (d.element, .string d.value) ∈ body
  property : ∀ p ∈ t.storedProperties, ∃ value,
    p.encode (e.value p.name) = .ok value ∧ (p.element, value) ∈ body
  navigation : ∀ n ∈ t.navigations, ∃ value,
    encodeNavigation n (e.value n.name) = .ok value ∧ (n.element, value) ∈ body

/-- A document begins with its key, which elements of the same name behind it overwrite. -/
theorem encode_eq_ofList {t : EntityType} {e : Entity} {document : Document}
    (h : t.encode e = .ok document) :
    ∃ front body, t.IsFront e front ∧ t.IsBody e body ∧
      document = Document.ofList (front ++ body) := by
  obtain ⟨leading, properties, owned, hleading, hproperties, howned, rfl⟩ := encode_ok h
  obtain ⟨front, hfront, rfl⟩ := leadingElements_ok hleading
  rw [encodeNavigations_eq] at howned
  refine ⟨front, (t.discriminator.toList.map fun d ↦ (d.element, .string d.value)) ++ properties ++
    owned, hfront, ⟨?_, fun d hd ↦ ?_, fun p hp ↦ ?_, fun n hn ↦ ?_⟩, by simp⟩
  · have hpropertyNames : properties.map Prod.fst = t.storedProperties.map (·.element) :=
      Outcome.map_of_mapM hproperties fun p element helement ↦ by
        obtain ⟨value, -, rfl⟩ := Outcome.map_eq_ok.1 helement
        rfl
    have hownedNames : owned.map Prod.fst = t.navigations.map (·.element) :=
      Outcome.map_of_mapM howned fun n element helement ↦ by
        obtain ⟨value, -, rfl⟩ := Outcome.map_eq_ok.1 helement
        rfl
    unfold Document.names bodyNames
    rw [List.map_append, List.map_append, hpropertyNames, hownedNames, List.map_map]
    rfl
  · have hmem : (d.element, Bson.string d.value) ∈
        t.discriminator.toList.map fun d ↦ (d.element, Bson.string d.value) :=
      List.mem_map_of_mem (Option.mem_toList.2 hd)
    simp [hmem]
  · obtain ⟨element, hmem, helement⟩ := Outcome.mem_of_mapM hproperties hp
    obtain ⟨value, hvalue, rfl⟩ := Outcome.map_eq_ok.1 helement
    exact ⟨value, hvalue, by simp [hmem]⟩
  · obtain ⟨element, hmem, helement⟩ := Outcome.mem_of_mapM howned hn
    obtain ⟨value, hvalue, rfl⟩ := Outcome.map_eq_ok.1 helement
    exact ⟨value, hvalue, by simp [hmem]⟩

/-- The document of a root entity has an identifier. -/
theorem get?_encode_isSome {t : EntityType} (hroot : t.isOwned = false) {e : Entity}
    {document : Document} (h : t.encode e = .ok document) : (document.get? idElement).isSome := by
  obtain ⟨front, body, hfront, -, rfl⟩ := encode_eq_ofList h
  unfold IsFront at hfront
  rw [hroot, if_neg (by simp)] at hfront
  obtain ⟨key, -, rfl⟩ := hfront
  rw [Document.get?_isSome, Document.ofList_eq_insertAll, Document.mem_names_insertAll]
  exact .inr List.mem_cons_self

/-- What a document of a type holds of the entity that it was made of. -/
structure Encoded (t : EntityType) (e : Entity) (document : Document) : Prop where
  identified : t.isOwned = false → (document.get? idElement).isSome
  discriminator : ∀ d ∈ t.discriminator, document.get? d.element = some (.string d.value)
  property : ∀ p ∈ t.storedProperties, ∃ value,
    p.encode (e.value p.name) = .ok value ∧ document.get? p.element = some value
  navigation : ∀ n ∈ t.navigations, ∃ value,
    encodeNavigation n (e.value n.name) = .ok value ∧ document.get? n.element = some value

theorem WellFormed.encoded {t : EntityType} (h : t.WellFormed) {e : Entity} {document : Document}
    (hdocument : t.encode e = .ok document) : t.Encoded e document := by
  obtain ⟨front, body, -, hbody, rfl⟩ := encode_eq_ofList hdocument
  have hnodup : body.names.Nodup := by
    rw [hbody.names]
    exact h.nodup_bodyNames
  have hget : ∀ {name value}, (name, value) ∈ body →
      (Document.ofList (front ++ body)).get? name = some value := by
    intro name value hmem
    rw [Document.ofList_eq_insertAll, Document.insertAll_append]
    exact Document.get?_insertAll_of_nodup hnodup _ hmem
  refine ⟨fun hroot ↦ get?_encode_isSome hroot hdocument,
    fun d hd ↦ hget (hbody.discriminator d hd), fun p hp ↦ ?_, fun n hn ↦ ?_⟩
  · obtain ⟨value, hvalue, hmem⟩ := hbody.property p hp
    exact ⟨value, hvalue, hget hmem⟩
  · obtain ⟨value, hvalue, hmem⟩ := hbody.navigation n hn
    exact ⟨value, hvalue, hget hmem⟩

theorem Addressable.encoded {t : EntityType} (h : t.Addressable) {e : Entity} {document : Document}
    (hdocument : t.encode e = .ok document) : t.Encoded e document :=
  h.wellFormed.encoded hdocument

/-- Where the key has its place, every element of a document has its own. -/
theorem Identified.encode_names {t : EntityType} (h : t.Identified) {e : Entity}
    {document : Document} (hdocument : t.encode e = .ok document) :
    document.names = t.storedNames ∧ document.Distinct ∧
      (t.isOwned = false → ∃ key, t.keyValue e = .ok key ∧ document.get? idElement = some key) := by
  obtain ⟨front, body, hfront, hbody, rfl⟩ := encode_eq_ofList hdocument
  unfold IsFront at hfront
  have hnames : Document.names (front ++ body) = t.storedNames := by
    have hbodyNames := hbody.names
    unfold Document.names storedNames at *
    rw [List.map_append, hbodyNames]
    split at hfront
    · next howned => rw [hfront, if_pos howned]; rfl
    · next hroot =>
      obtain ⟨key, -, rfl⟩ := hfront
      rw [if_neg hroot]
      rfl
  have hkeys : t.isOwned = false → t.keys ≠ [] := by
    intro hroot
    rw [hroot, if_neg (by simp)] at hfront
    obtain ⟨key, hkey, -⟩ := hfront
    exact keys_ne_nil_of_keyValue hkey
  have hdistinct : Document.Distinct (front ++ body) := by
    unfold Document.Distinct
    rw [hnames]
    exact h.nodup_storedNames hkeys
  rw [Document.ofList_of_nodup hdistinct]
  refine ⟨hnames, hdistinct, fun hroot ↦ ?_⟩
  rw [hroot, if_neg (by simp)] at hfront
  obtain ⟨key, hkey, rfl⟩ := hfront
  exact ⟨key, hkey, hdistinct.get? List.mem_cons_self⟩

theorem keyElements_composite {t : EntityType} (hcomposite : t.hasCompositeKey = true) {e : Entity}
    {key : Bson} (hkey : t.keyValue e = .ok key) :
    ∃ elements, key = .document (Document.ofList elements) ∧
      List.Forall₂ (fun p element ↦ ∃ value, p.encode (e.value p.name) = .ok value ∧
        element = (p.element, value)) t.keys elements := by
  unfold keyValue at hkey
  rw [hcomposite, if_pos rfl] at hkey
  obtain ⟨elements, helements, rfl⟩ := Outcome.map_eq_ok.1 hkey
  rw [keyElements_eq] at helements
  refine ⟨elements, rfl, (Outcome.mapM_eq_ok.1 helements).imp fun p element helement ↦ ?_⟩
  obtain ⟨value, hvalue, rfl⟩ := Outcome.map_eq_ok.1 helement
  exact ⟨value, hvalue, rfl⟩

theorem keyValue_composite {t : EntityType} (hcomposite : t.hasCompositeKey = true)
    (hkeys : t.KeyPartsApart) {e : Entity} {key : Bson} (hkey : t.keyValue e = .ok key) :
    ∃ elements, key = .document elements ∧ ∀ p ∈ t.keys, ∃ value,
      p.encode (e.value p.name) = .ok value ∧ Document.get? elements p.element = some value := by
  obtain ⟨elements, rfl, helements⟩ := keyElements_composite hcomposite hkey
  refine ⟨_, rfl, fun p hp ↦ ?_⟩
  obtain ⟨_, hmem, value, hvalue, rfl⟩ := Outcome.exists_right helements hp
  refine ⟨value, hvalue, Document.get?_insertAll _ hmem fun other hother ↦ ?_⟩
  obtain ⟨q, hq, stored, hstored, heq⟩ := Outcome.exists_left helements hother
  obtain ⟨helement, rfl⟩ := Prod.mk.inj heq
  cases hkeys hcomposite p hp q hq helement
  exact Except.ok.inj (hstored.symm.trans hvalue)

theorem keyValue_single {t : EntityType} (hroot : t.isOwned = false)
    (hsingle : t.hasCompositeKey = false) {p : Property} (hp : p ∈ t.keys) (e : Entity) :
    t.keyValue e = p.encode (e.value p.name) := by
  have hmost : t.keys.length ≤ 1 := by
    simpa [hasCompositeKey, hroot] using hsingle
  have hleast := List.length_pos_of_mem hp
  obtain ⟨q, hq⟩ := List.length_eq_one_iff.1 (Nat.le_antisymm hmost hleast)
  rw [hq, List.mem_singleton] at hp
  unfold keyValue
  rw [hsingle, if_neg (by simp), hq, hp]

/-- The parts of a key are found at their paths. -/
theorem Identified.lookup_key {t : EntityType} (h : t.Identified) (hroot : t.isOwned = false)
    (hparts : t.KeyPartsApart) {e : Entity} {document : Document}
    (hdocument : t.encode e = .ok document) {p : Property} (hp : p ∈ t.keys) :
    ∃ value, p.encode (e.value p.name) = .ok value ∧
      document.lookup (t.elementPath p) = some value := by
  obtain ⟨key, hkey, hget⟩ := (h.encode_names hdocument).2.2 hroot
  unfold elementPath
  cases hcomposite : t.hasCompositeKey with
  | true =>
    obtain ⟨elements, rfl, hvalues⟩ := keyValue_composite hcomposite hparts hkey
    obtain ⟨value, hvalue, hpart⟩ := hvalues p hp
    refine ⟨value, hvalue, ?_⟩
    rw [isKey_of_mem hp, Bool.and_self, if_pos rfl, Document.lookup_cons _ _ (by simp),
      Document.nested?_of_get? hget]
    exact hpart
  | false =>
    rw [keyValue_single hroot hcomposite hp] at hkey
    refine ⟨key, hkey, ?_⟩
    rw [Bool.false_and, if_neg (by simp), h.keyHasId hroot hcomposite p hp]
    exact hget

end DocMapping.EntityType
