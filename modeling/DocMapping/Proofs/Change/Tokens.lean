import DocMapping.Proofs.Codec.Key

/-!
# Concurrency Tokens

The filter for a change also asks for the concurrency tokens of the entity, as they were.  It
selects the document of the entity itself, and no document with the same key in which a token
differs.  Only the tokens of the root type are asked for: those of owned types are not.
-/

namespace DocMapping

/-! ## Changed fields -/

namespace Property

/-- A field does not hold the stored value of a property any more: the order sees another value in
it, or it holds another exact value of the form of the property. -/
def HasChanged (p : Property) (value : Bson) (field : Option Bson) : Prop :=
  FieldOperator.equalsField field value = false ∨
    p.isCollection = false ∧ value.IsExactScalar ∧ ∃ stored, field = some stored ∧
      stored.HasForm p.storedForm ∧ stored.IsExactScalar ∧ stored.eq value = false

/-- Filters tell that a field has changed. -/
theorem HasChanged.equalsField {p : Property} {value : Bson} {field : Option Bson}
    (h : p.HasChanged value field) {original : Value} (hvalue : p.encode original = .ok value) :
    FieldOperator.equalsField field value = false := by
  obtain hdiffers | ⟨hscalar, hexact, stored, rfl, hform, hstored, hne⟩ := h
  · exact hdiffers
  · refine Bool.eq_false_iff.2 fun hequal ↦ ?_
    have hsame : stored.sortKey = value.sortKey := (Bson.matchesValue_iff.1 hequal).1
    rw [Bson.sortKey_eq_iff_of_hasForm hform (Property.hasForm_encode hscalar hvalue) hstored hexact,
      hne] at hsame
    cases hsame

end Property

namespace EntityType

variable {t : EntityType}

/-! ## Selected documents -/

/-- A property that bears the name of a key and is a concurrency token is the key. -/
def TokensApartFromKeys (t : EntityType) : Prop :=
  ∀ p ∈ t.concurrencyTokens, t.isKey p.name = true → p ∈ t.keys

theorem Addressable.segments_keyPath (h : t.Addressable) (hroot : t.isOwned = false) {p : Property}
    (hp : p ∈ t.keys) : Text.segments (Text.dotted (t.elementPath p)) = t.elementPath p := by
  have hkeyUnderId := h.keyUnderId hroot
  unfold KeyUnderId at hkeyUnderId
  unfold elementPath
  cases hcomposite : t.hasCompositeKey with
  | true =>
    rw [hcomposite, if_pos rfl] at hkeyUnderId
    have hsegment : Text.IsSegment p.element := fun hpoint ↦ by
      have hcontains := hkeyUnderId.2 p hp
      rw [Text.contains_point.2 hpoint] at hcontains
      cases hcontains
    rw [isKey_of_mem hp, Bool.and_self, if_pos rfl]
    exact Text.segments_dotted (by simp) (by simp [isSegment_idElement, hsegment])
  | false =>
    rw [hcomposite, if_neg (by simp)] at hkeyUnderId
    rw [Bool.false_and, if_neg (by simp), hkeyUnderId p hp]
    exact Text.segments_dotted (by simp) (by simp [isSegment_idElement])

/-- The document of an entity holds its concurrency tokens where the filter looks for them. -/
theorem Addressable.resolve_token (h : t.Addressable) (hroot : t.isOwned = false)
    (htokens : t.TokensApartFromKeys) {e : Entity} {document : Document}
    (hdocument : t.encode e = .ok document) {p : Property} (hp : p ∈ t.concurrencyTokens) :
    ∃ value, p.encode (e.value p.name) = .ok value ∧
      document.resolve (Text.dotted (t.elementPath p)) = some value := by
  have hproperty : p ∈ t.properties := (List.mem_filter.1 hp).1
  cases hkey : t.isKey p.name with
  | true =>
    have hmem := htokens p hp hkey
    obtain ⟨value, hvalue, hlookup⟩ :=
      h.identified.lookup_key hroot (h.keyUnderId hroot).keyPartsApart hdocument hmem
    refine ⟨value, hvalue, ?_⟩
    rw [Document.resolve, h.segments_keyPath hroot hmem]
    exact hlookup
  | false =>
    have hstored : p ∈ t.storedProperties := mem_storedProperties.2 ⟨hproperty, .inr hkey⟩
    obtain ⟨value, hvalue, hget⟩ := (h.encoded hdocument).property p hstored
    have hsegment := isSegment_of_isElementName
      (h.wellFormed.valid _ (element_mem_of_stored hstored))
    refine ⟨value, hvalue, ?_⟩
    unfold elementPath
    rw [hkey, Bool.and_false, if_neg (by simp), Document.resolve,
      Text.segments_dotted (by simp) (by simpa using hsegment)]
    exact hget

/-- The filter for the document of an entity can be built, and selects it. -/
theorem Addressable.keyCondition_holds (h : t.Addressable) (hroot : t.isOwned = false)
    (htokens : t.TokensApartFromKeys) {e : Entity} {document : Document}
    (hdocument : t.encode e = .ok document) :
    ∃ filter key, t.keyCondition true e = .ok (filter, key) ∧ filter.holds document = true := by
  obtain ⟨key, hkey, hget⟩ := (h.identified.encode_names hdocument).2.2 hroot
  have hconvert : ∀ p ∈ t.concurrencyTokens, ∃ element,
      ((p.encode (e.value p.name)).map fun value ↦
        (Text.dotted (t.elementPath p), value)) = .ok element := by
    intro p hp
    obtain ⟨value, hvalue, -⟩ := h.resolve_token hroot htokens hdocument hp
    exact ⟨_, by rw [hvalue]; rfl⟩
  obtain ⟨tokens, hconverted⟩ := Outcome.exists_mapM hconvert
  have hfilter : t.keyFilter true e = .ok (Document.ofList ((idElement, key) :: tokens)) := by
    unfold keyFilter tokenElements
    rw [hkey, hconverted]
    rfl
  refine ⟨_, _, by rw [keyCondition, hfilter]; rfl,
    Filter.holds_matching.2 fun element helement ↦ ?_⟩
  rcases List.mem_cons.1 (Document.mem_ofList helement) with rfl | htoken
  · rw [resolve_idElement, hget]
    exact (isOrdered_keyValue hroot hkey).matchesValue_self
  · obtain ⟨p, hp, helement⟩ := Outcome.exists_of_mapM hconverted htoken
    obtain ⟨value, hvalue, rfl⟩ := Outcome.map_eq_ok.1 helement
    obtain ⟨_, hsame, hresolve⟩ := h.resolve_token hroot htokens hdocument hp
    cases hvalue.symm.trans hsame
    rw [hresolve]
    exact (Property.isOrdered_encode hvalue).matchesValue_self

/-! ## Stale documents -/

/-- The properties with an element of their own, and a key that is not composite. -/
def plainProperties (t : EntityType) : List Property :=
  t.properties.filter fun p ↦ !(t.hasCompositeKey && t.isKey p.name)

theorem mem_plainProperties {p : Property} :
    p ∈ t.plainProperties ↔ p ∈ t.properties ∧ (t.hasCompositeKey && t.isKey p.name) = false := by
  rw [plainProperties, List.mem_filter, Bool.not_eq_true']

theorem WellFormed.plain_inj (h : t.WellFormed) {p q : Property} (hp : p ∈ t.plainProperties)
    (hq : q ∈ t.plainProperties) (helement : p.element = q.element) : p = q := by
  have helements := h.distinct
  unfold elements at helements
  rw [List.append_assoc, List.append_assoc] at helements
  exact List.inj_on_of_nodup_map (List.nodup_append.1 helements).1 hp hq helement

theorem WellFormed.isSegment_plain (h : t.WellFormed) {p : Property} (hp : p ∈ t.plainProperties) :
    Text.IsSegment p.element := by
  refine isSegment_of_isElementName (h.valid _ ?_)
  unfold elements
  simp only [List.mem_append]
  exact .inl (.inl (.inl (List.mem_map_of_mem hp)))

/-- Only a key that is not composite is stored under `_id` by itself. -/
theorem Identified.keyValue_plain (h : t.Identified) (hroot : t.isOwned = false) {p : Property}
    (hp : p ∈ t.plainProperties) (hid : p.element = idElement) {e : Entity} {key : Bson}
    (hkey : t.keyValue e = .ok key) : p.encode (e.value p.name) = .ok key := by
  cases hcomposite : t.hasCompositeKey with
  | true =>
    have helements := h.wellFormed.distinct
    unfold elements at helements
    rw [hcomposite, if_pos rfl] at helements
    refine absurd rfl ((List.nodup_append.1 helements).2.2 idElement ?_ _ List.mem_cons_self)
    simp only [List.mem_append]
    refine .inl (.inl (List.mem_map.2 ⟨p, ?_, hid⟩))
    rw [← hcomposite]
    exact hp
  | false =>
    obtain ⟨q, hq⟩ := List.exists_mem_of_ne_nil _ (keys_ne_nil_of_keyValue hkey)
    have hplain : q ∈ t.plainProperties :=
      mem_plainProperties.2 ⟨h.wellFormed.keys q hq, by rw [hcomposite, Bool.false_and]⟩
    have hsame : p = q :=
      h.wellFormed.plain_inj hp hplain (hid.trans (h.keyHasId hroot hcomposite q hq).symm)
    rw [hsame, ← keyValue_single hroot hcomposite hq]
    exact hkey

/-- What a filter asks for of one element: it is the key as a whole, or a property. -/
def AsksFor (t : EntityType) (e : Entity) (name : String) (value : Bson) : Prop :=
  name = idElement ∧ t.keyValue e = .ok value ∨
    ∃ p ∈ t.plainProperties, p.element = name ∧ p.encode (e.value p.name) = .ok value

theorem Identified.asksFor_unique (h : t.Identified) (hroot : t.isOwned = false) {e : Entity}
    {name : String} {value other : Bson} (hvalue : t.AsksFor e name value)
    (hother : t.AsksFor e name other) : other = value := by
  rcases hvalue with ⟨rfl, hkey⟩ | ⟨p, hp, rfl, hvalue⟩ <;>
    rcases hother with ⟨hid, hagain⟩ | ⟨q, hq, helement, hother⟩
  · exact Except.ok.inj (hagain.symm.trans hkey)
  · exact Except.ok.inj (hother.symm.trans (h.keyValue_plain hroot hq helement hkey))
  · exact Except.ok.inj ((h.keyValue_plain hroot hp hid hagain).symm.trans hvalue)
  · cases h.wellFormed.plain_inj hp hq helement.symm
    exact Except.ok.inj (hother.symm.trans hvalue)

theorem mem_dotted_elementPath {p : Property} (hp : p ∈ t.properties)
    (hplain : p ∉ t.plainProperties) : '.' ∈ (Text.dotted (t.elementPath p)).toList := by
  have hpart : (t.hasCompositeKey && t.isKey p.name) = true := by
    simpa [mem_plainProperties, hp] using hplain
  rw [elementPath, if_pos hpart]
  simp [Text.dotted, Text.joinDots]

theorem dotted_elementPath {p : Property} (hp : p ∈ t.plainProperties) :
    Text.dotted (t.elementPath p) = p.element := by
  rw [elementPath, (mem_plainProperties.1 hp).2, if_neg (by simp)]
  exact String.ofList_toList

/-- The filter for a change asks for the key, and for every token that is no part of a key. -/
theorem Identified.get?_keyFilter (h : t.Identified) (hroot : t.isOwned = false) {e : Entity}
    {elements : Document} (hfilter : t.keyFilter true e = .ok elements) :
    (∃ key, t.keyValue e = .ok key ∧ elements.get? idElement = some key) ∧
      ∀ p ∈ t.concurrencyTokens, p ∈ t.plainProperties →
        ∃ value, p.encode (e.value p.name) = .ok value ∧ elements.get? p.element = some value := by
  unfold keyFilter at hfilter
  obtain ⟨key, hkey, hfilter⟩ := Outcome.bind_eq_ok.1 hfilter
  obtain ⟨tokens, htokens, hfilter⟩ := Outcome.bind_eq_ok.1 hfilter
  cases hfilter
  unfold tokenElements at htokens
  -- The key itself may be a token and is then asked for twice, each time with the same value.  Parts
  -- of a composite key are asked for under dotted names, which are never those of other elements.
  have hasks : ∀ {name value}, Text.IsSegment name → (name, value) ∈ (idElement, key) :: tokens →
      t.AsksFor e name value := by
    intro name value hsegment hmem
    rcases List.mem_cons.1 hmem with heq | hmem
    · cases heq
      exact .inl ⟨rfl, hkey⟩
    · obtain ⟨p, hp, helement⟩ := Outcome.exists_of_mapM htokens hmem
      obtain ⟨_, hvalue, heq⟩ := Outcome.map_eq_ok.1 helement
      obtain ⟨rfl, rfl⟩ := Prod.mk.inj heq
      have hplain : p ∈ t.plainProperties := by
        by_contra hpart
        exact hsegment (mem_dotted_elementPath (List.mem_filter.1 hp).1 hpart)
      exact .inr ⟨p, hplain, (dotted_elementPath hplain).symm, hvalue⟩
  have hget : ∀ {name value}, Text.IsSegment name → (name, value) ∈ (idElement, key) :: tokens →
      (Document.ofList ((idElement, key) :: tokens)).get? name = some value := fun hsegment hmem ↦
    Document.get?_insertAll _ hmem fun other hother ↦
      h.asksFor_unique hroot (hasks hsegment hmem) (hasks hsegment hother)
  refine ⟨⟨key, hkey, hget isSegment_idElement List.mem_cons_self⟩, fun p hp hplain ↦ ?_⟩
  obtain ⟨_, hmem, helement⟩ := Outcome.mem_of_mapM htokens hp
  obtain ⟨value, hvalue, rfl⟩ := Outcome.map_eq_ok.1 helement
  rw [dotted_elementPath hplain] at hmem
  exact ⟨value, hvalue, hget (h.wellFormed.isSegment_plain hplain) (List.mem_cons_of_mem _ hmem)⟩

/-- A token of the entity has changed in the document.  Parts of a composite key are not counted:
documents with the same key have the same parts. -/
def IsStale (t : EntityType) (e : Entity) (document : Document) : Prop :=
  ∃ p ∈ t.concurrencyTokens, p ∈ t.plainProperties ∧ ∃ value,
    p.encode (e.value p.name) = .ok value ∧ p.HasChanged value (document.get? p.element)

/-- The filter for a change selects no document that is stale. -/
theorem Identified.not_holds_of_isStale (h : t.Identified) (hroot : t.isOwned = false) {e : Entity}
    {filter : Filter Bson} {shown : String}
    (hcondition : t.keyCondition true e = .ok (filter, shown)) :
    ∃ key, t.keyValue e = .ok key ∧ shown = key.text ∧ ∀ document,
      (FieldOperator.equalsField (document.get? idElement) key = true → t.IsStale e document) →
        filter.holds document = false := by
  unfold keyCondition at hcondition
  obtain ⟨elements, helements, heq⟩ := Outcome.map_eq_ok.1 hcondition
  obtain ⟨rfl, rfl⟩ := Prod.mk.inj heq
  obtain ⟨⟨key, hkey, hid⟩, htokens⟩ := h.get?_keyFilter hroot helements
  refine ⟨key, hkey, by rw [hid]; rfl, fun document hstale ↦ Bool.eq_false_iff.2 fun hholds ↦ ?_⟩
  have hequal : ∀ {name value}, Text.IsSegment name → elements.get? name = some value →
      FieldOperator.equalsField (document.get? name) value = true := by
    intro name value hsegment hget
    have hfield := Filter.holds_matching.1 hholds _ (Association.mem_of_lookup hget)
    rw [Document.resolve, Text.segments_of_isSegment hsegment] at hfield
    exact hfield
  obtain ⟨p, hp, hplain, value, hvalue, hchanged⟩ := hstale (hequal isSegment_idElement hid)
  obtain ⟨_, hsame, hget⟩ := htokens p hp hplain
  cases hvalue.symm.trans hsame
  have hdiffers := hchanged.equalsField hvalue
  rw [hequal (h.wellFormed.isSegment_plain hplain) hget] at hdiffers
  cases hdiffers

end EntityType

end DocMapping
