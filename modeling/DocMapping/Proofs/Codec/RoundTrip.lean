import DocMapping.Proofs.Codec.Key
import DocMapping.Proofs.Value.Owned

/-!
# Reading What Was Written

An entity all of whose members are set is read back from its document, at every depth of owned
entities.  The key of a root type is written under `_id` but read at the paths of its properties.
These must lead there, to a part of its own for each, and no other property may bear the name of a
key.
-/

namespace DocMapping

/-! ## Complete entities -/

/-- The value has a stored form, from which it is read back. -/
def Property.Survives (p : Property) (value : Value) : Prop :=
  ∃ stored, p.encode value = .ok stored ∧ p.decode stored = .ok value

/-- What a navigation holds: nothing, one entity, or entities in its container. -/
def Navigation.Accepts (n : Navigation EntityType) : Value → Prop
  | .null => True
  | .entity _ _ => n.container = none
  | .collection container items =>
    n.container = some container ∧ ∀ item ∈ items, (Value.entity? item).isSome
  | _ => False

namespace EntityType

/-- The names of all mapped members. -/
def members (t : EntityType) : List String :=
  t.properties.map Property.name ++ t.navigations.map Navigation.name

/-- Exactly the mapped members are set, to values that survive being stored. -/
inductive Complete : EntityType → Entity → Prop
  | mk {t : EntityType} {e : Entity} (type : e.type = t.name) (sorted : e.Sorted)
      (members : ∀ member, (e.get? member).isSome ↔ member ∈ t.members)
      (properties : ∀ p ∈ t.properties, p.Survives (e.value p.name))
      (navigations : ∀ n ∈ t.navigations, n.Accepts (e.value n.name))
      (owned : ∀ n ∈ t.navigations, ∀ o ∈ (e.value n.name).owned, Complete n.target o) :
      Complete t e

/-- The key is read where it is written. -/
structure KeyReadable (t : EntityType) : Prop where
  hasId : t.KeyHasId
  partsApart : t.KeyPartsApart
  named : ∀ p ∈ t.properties, t.isKey p.name = true → p ∈ t.keys

variable {t : EntityType} {e : Entity} {document : Document}

/-! ## Writing -/

theorem exists_keyValue (hroot : t.isOwned = false) (hkeys : t.keys ≠ [])
    (h : ∀ p ∈ t.keys, ∃ stored, p.encode (e.value p.name) = .ok stored) :
    ∃ key, t.keyValue e = .ok key := by
  cases hcomposite : t.hasCompositeKey with
  | true =>
    obtain ⟨elements, helements⟩ : ∃ elements, (t.keys.mapM fun p ↦
        (p.encode (e.value p.name)).map fun value ↦ (p.element, value)) = .ok elements :=
      Outcome.exists_mapM fun p hp ↦ by
        obtain ⟨stored, hstored⟩ := h p hp
        exact ⟨_, Outcome.map_eq_ok.2 ⟨stored, hstored, rfl⟩⟩
    unfold keyValue
    rw [hcomposite, if_pos rfl, keyElements_eq, helements]
    exact ⟨_, rfl⟩
  | false =>
    obtain ⟨p, hp⟩ := List.exists_mem_of_ne_nil _ hkeys
    rw [keyValue_single hroot hcomposite hp]
    exact h p hp

/-- An entity has a document if all its members have stored forms. -/
theorem WellFormed.exists_encode (h : t.WellFormed) (hkeys : t.isOwned = false → t.keys ≠ [])
    (hproperties : ∀ p ∈ t.properties, ∃ stored, p.encode (e.value p.name) = .ok stored)
    (hnavigations : ∀ n ∈ t.navigations,
      ∃ stored, encodeNavigation n (e.value n.name) = .ok stored) :
    ∃ document, t.encode e = .ok document := by
  have hleading : ∃ leading, t.leadingElements e = .ok leading := by
    unfold leadingElements
    cases hroot : t.isOwned with
    | true => exact ⟨_, rfl⟩
    | false =>
      obtain ⟨key, hkey⟩ := exists_keyValue hroot (hkeys hroot) fun p hp ↦
        hproperties p (h.keys p hp)
      rw [hkey]
      exact ⟨_, rfl⟩
  obtain ⟨leading, hleading⟩ := hleading
  obtain ⟨properties, hstored⟩ : ∃ properties, t.propertyElements e = .ok properties :=
    Outcome.exists_mapM fun p hp ↦ by
      obtain ⟨stored, hstored⟩ := hproperties p (mem_storedProperties.1 hp).1
      exact ⟨_, Outcome.map_eq_ok.2 ⟨stored, hstored, rfl⟩⟩
  obtain ⟨owned, howned⟩ : ∃ owned, encodeNavigations t.navigations e = .ok owned := by
    rw [encodeNavigations_eq]
    refine Outcome.exists_mapM fun n hn ↦ ?_
    obtain ⟨stored, hstored⟩ := hnavigations n hn
    exact ⟨_, Outcome.map_eq_ok.2 ⟨stored, hstored, rfl⟩⟩
  rw [encode_eq, hleading, hstored, howned]
  exact ⟨_, rfl⟩

/-! ## Reading -/

theorem decode_eq (t : EntityType) (document : Document) :
    t.decode document = (do
      let e ← t.decodeProperties document t.properties (Entity.empty t.name)
      decodeNavigations t.name document t.navigations e) := by
  cases t
  rw [decode]

/-- Properties are read where the path of each leads. -/
theorem decodeProperties_ok {properties : List Property}
    (h : ∀ p ∈ properties, ∃ stored, document.lookup (t.elementPath p) = some stored ∧
      p.decode stored = .ok (e.value p.name)) (start : Entity) :
    t.decodeProperties document properties start =
      .ok (e.setAll (properties.map Property.name) start) := by
  induction properties generalizing start with
  | nil => rfl
  | cons p rest ih =>
    obtain ⟨⟨stored, hlookup, hdecode⟩, hrest⟩ := List.forall_mem_cons.1 h
    unfold decodeProperties
    dsimp only
    rw [hlookup]
    dsimp only
    rw [hdecode]
    exact ih hrest _

theorem decodeNavigations_ok {navigations : List (Navigation EntityType)}
    (h : ∀ n ∈ navigations, ∃ stored, document.get? n.element = some stored ∧
      decodeNavigation n stored = .ok (e.value n.name)) (entity : String) (start : Entity) :
    decodeNavigations entity document navigations start =
      .ok (e.setAll (navigations.map Navigation.name) start) := by
  induction navigations generalizing start with
  | nil =>
    rw [decodeNavigations]
    rfl
  | cons n rest ih =>
    obtain ⟨⟨stored, hget, hdecode⟩, hrest⟩ := List.forall_mem_cons.1 h
    rw [decodeNavigations, hget]
    dsimp only
    rw [hdecode]
    exact ih hrest _

/-- Every property is found at its path. -/
theorem Identified.lookup_property (h : t.Identified) (hkey : t.isOwned = false → t.KeyReadable)
    (hdocument : t.encode e = .ok document) {p : Property} (hp : p ∈ t.properties) :
    ∃ stored, p.encode (e.value p.name) = .ok stored ∧
      document.lookup (t.elementPath p) = some stored := by
  by_cases hpart : t.isOwned = false ∧ t.isKey p.name = true
  · obtain ⟨hroot, hname⟩ := hpart
    have hreadable := hkey hroot
    exact h.lookup_key hroot hreadable.partsApart hdocument (hreadable.named p hp hname)
  · have hpath : t.elementPath p = [p.element] := by
      unfold elementPath
      rw [if_neg]
      intro hkeyPart
      obtain ⟨hcomposite, hname⟩ := Bool.and_eq_true_iff.1 hkeyPart
      exact hpart ⟨isOwned_of_hasCompositeKey hcomposite, hname⟩
    have hmem : p ∈ t.storedProperties := by
      refine mem_storedProperties.2 ⟨hp, ?_⟩
      cases hroot : t.isOwned with
      | true => exact .inl rfl
      | false => exact .inr (Bool.eq_false_iff.2 fun hname ↦ hpart ⟨hroot, hname⟩)
    rw [hpath]
    exact (h.wellFormed.encoded hdocument).property p hmem

/-! ## Owned entities -/

/-- What a navigation holds is read back if every owned entity is. -/
theorem decodeNavigation_encodeNavigation {n : Navigation EntityType} {value : Value}
    (hvalue : n.Accepts value)
    (h : ∀ o ∈ value.owned, ∃ document, n.target.encode o = .ok document ∧
      n.target.decode document = .ok o) :
    ∃ stored, encodeNavigation n value = .ok stored ∧ decodeNavigation n stored = .ok value := by
  obtain ⟨name, element, target, container, nullable⟩ := n
  cases value with
  | null => exact ⟨.null, by rw [encodeNavigation], by rw [decodeNavigation]⟩
  | entity type members =>
    cases hvalue
    obtain ⟨document, hencode, hdecode⟩ := h ⟨type, members⟩ List.mem_cons_self
    refine ⟨.document document, ?_, ?_⟩
    · rw [encodeNavigation, hencode]
      rfl
    · rw [decodeNavigation, hdecode]
      rfl
  | collection form items =>
    obtain ⟨hform, hitems⟩ := hvalue
    cases hform
    obtain ⟨results, hread⟩ : ∃ results,
        encodeNavigation ⟨name, element, target, some form, nullable⟩ (.collection form items) =
          .ok (.array results) ∧
        decodeNavigation ⟨name, element, target, some form, nullable⟩ (.array results) =
          .ok (.collection form items) := by
      simp only [encodeNavigation, decodeNavigation]
      -- What is done with each item is left to be found in the definitions just unfolded.
      refine (Outcome.exists_mapM_inverse fun item hitem ↦ ?_).imp fun results h ↦
        ⟨congrArg (Except.map Bson.array) h.1, congrArg (Except.map (Value.collection form)) h.2⟩
      obtain ⟨o, ho⟩ := Option.isSome_iff_exists.1 (hitems item hitem)
      obtain ⟨document, hencode, hdecode⟩ := h o (List.mem_filterMap.2 ⟨item, hitem, ho⟩)
      rw [Value.eq_toValue ho]
      exact ⟨.document document, congrArg (Except.map Bson.document) hencode,
        congrArg (Except.map Entity.toValue) hdecode⟩
    exact ⟨.array results, hread⟩
  | _ => exact hvalue.elim

/-! ## Entities -/

/-- Entities of well-formed types are read back, those of root types where the key can be read. -/
theorem WellFormed.exists_decode (h : t.WellFormed) (hkey : t.isOwned = false → t.KeyReadable)
    (hkeys : t.isOwned = false → t.keys ≠ []) (he : t.Complete e) :
    ∃ document, t.encode e = .ok document ∧ t.decode document = .ok e := by
  -- Well-formedness follows the navigations, at whose ends owned types need nothing of their keys.
  induction h generalizing e with
  | @mk t distinct valid keys owned targets ih =>
    have hwell : t.WellFormed := .mk distinct valid keys owned targets
    have hidentified : t.Identified := ⟨hwell, fun hroot ↦ (hkey hroot).hasId⟩
    obtain ⟨htype, hsorted, hmembers, hproperties, haccepts, howned⟩ := he
    have hnavigations : ∀ n ∈ t.navigations, ∃ stored,
        encodeNavigation n (e.value n.name) = .ok stored ∧
          decodeNavigation n stored = .ok (e.value n.name) := fun n hn ↦
      decodeNavigation_encodeNavigation (haccepts n hn) fun o ho ↦
        ih n hn (fun hroot ↦ absurd (owned n hn) (by simp [hroot]))
          (fun hroot ↦ absurd (owned n hn) (by simp [hroot])) (howned n hn o ho)
    obtain ⟨document, hdocument⟩ := hwell.exists_encode hkeys
      (fun p hp ↦ (hproperties p hp).imp fun _ hstored ↦ hstored.1)
      fun n hn ↦ (hnavigations n hn).imp fun _ hstored ↦ hstored.1
    refine ⟨document, hdocument, ?_⟩
    have hreads : ∀ p ∈ t.properties, ∃ stored, document.lookup (t.elementPath p) = some stored ∧
        p.decode stored = .ok (e.value p.name) := by
      intro p hp
      obtain ⟨stored, hstored, hlookup⟩ := hidentified.lookup_property hkey hdocument hp
      obtain ⟨_, hsame, hdecode⟩ := hproperties p hp
      cases hstored.symm.trans hsame
      exact ⟨stored, hlookup, hdecode⟩
    have hholds : ∀ n ∈ t.navigations, ∃ stored, document.get? n.element = some stored ∧
        decodeNavigation n stored = .ok (e.value n.name) := by
      intro n hn
      obtain ⟨stored, hstored, hget⟩ := (hwell.encoded hdocument).navigation n hn
      obtain ⟨_, hsame, hdecode⟩ := hnavigations n hn
      cases hstored.symm.trans hsame
      exact ⟨stored, hget, hdecode⟩
    have hall : e.setAll (t.navigations.map Navigation.name)
        (e.setAll (t.properties.map Property.name) (Entity.empty t.name)) = e :=
      calc
        _ = e.setAll t.members (Entity.empty e.type) := by
          rw [← htype]
          exact List.foldl_append.symm
        _ = e := hsorted.setAll_empty hmembers
    rw [decode_eq, decodeProperties_ok hreads]
    exact (decodeNavigations_ok hholds t.name _).trans (congrArg Except.ok hall)

/-- Every complete entity of a root type of an accepted model has a document and is read back from
it, if the key of the type is read where it is written. -/
theorem decode_encode {m : ModelDeclaration} {model : Model} (hmodel : m.build = .ok model)
    (ht : t ∈ model.entities) (hroot : t.isOwned = false) (hkey : t.KeyReadable)
    (he : t.Complete e) : ∃ document, t.encode e = .ok document ∧ t.decode document = .ok e :=
  (ModelDeclaration.wellFormed_of_build hmodel t ht).exists_decode (fun _ ↦ hkey)
    (fun _ ↦ (ModelDeclaration.wellKeyed_of_build hmodel t ht).nonempty hroot) he

/-! ## Keys of two parts, and keys that are not found -/

/-- Planets of many systems, with their moons and an orbit that may not be known. -/
def systems : ModelDeclaration :=
  ⟨.camelCase,
    [⟨"Orbit", true, none, [], [declared "Days" .int32], [], none⟩,
    ⟨"Moon", true, none, [], [declared "Name" .string], [], none⟩,
    ⟨"Planet", false, none, ["Star", "Place"], [declared "Star" .string, declared "Place" .int32],
      [⟨"Moons", "Moon", some .list, none, false⟩, ⟨"Orbit", "Orbit", none, none, true⟩],
      some ⟨"kind", "planet"⟩⟩]⟩

def moon : EntityType :=
  ⟨"Moon", none, [{ Property.plain "Name" (.scalar .string) with element := "name" }], [], [], none⟩

def orbit : EntityType :=
  ⟨"Orbit", none, [{ Property.plain "Days" (.scalar .int32) with element := "days" }], [], [], none⟩

def planet : EntityType :=
  ⟨"Planet", some "Planet",
    [{ Property.plain "Star" (.scalar .string) with element := "star" },
      { Property.plain "Place" (.scalar .int32) with element := "place" }],
    [{ Property.plain "Star" (.scalar .string) with element := "star" },
      { Property.plain "Place" (.scalar .int32) with element := "place" }],
    [⟨"Moons", "moons", moon, some .list, false⟩, ⟨"Orbit", "orbit", orbit, none, true⟩],
    some ⟨"kind", "planet"⟩⟩

def mars : Entity :=
  ⟨"Planet", [("Moons", .collection .list [.entity "Moon" [("Name", .string "Phobos")],
    .entity "Moon" [("Name", .string "Deimos")]]),
    ("Orbit", .entity "Orbit" [("Days", .int32 687)]), ("Place", .int32 4),
    ("Star", .string "Sun")]⟩

theorem complete_moon (name : String) : moon.Complete ⟨"Moon", [("Name", .string name)]⟩ :=
  .mk rfl (List.pairwise_singleton _ _) (fun _ ↦ Association.lookup_isSome)
    (List.forall_mem_singleton.2 ⟨_, rfl, rfl⟩) (by simp [moon]) (by simp [moon])

theorem complete_orbit : orbit.Complete ⟨"Orbit", [("Days", .int32 687)]⟩ :=
  .mk rfl (List.pairwise_singleton _ _) (fun _ ↦ Association.lookup_isSome)
    (List.forall_mem_singleton.2 ⟨_, rfl, rfl⟩) (by simp [orbit]) (by simp [orbit])

theorem complete_mars : planet.Complete mars := by
  refine .mk rfl (by decide)
    (fun member ↦ Association.lookup_isSome.trans (List.Perm.mem_iff (by decide)))
    (List.forall_mem_cons.2 ⟨⟨_, rfl, rfl⟩, List.forall_mem_singleton.2 ⟨_, rfl, rfl⟩⟩) ?_ ?_
  · exact List.forall_mem_cons.2 ⟨⟨rfl, by simp [Value.entity?]⟩, List.forall_mem_singleton.2 rfl⟩
  · have hmoons : ∀ o ∈ (mars.value "Moons").owned, moon.Complete o :=
      List.forall_mem_cons.2 ⟨complete_moon "Phobos",
        List.forall_mem_singleton.2 (complete_moon "Deimos")⟩
    have horbit : ∀ o ∈ (mars.value "Orbit").owned, orbit.Complete o :=
      List.forall_mem_singleton.2 complete_orbit
    exact List.forall_mem_cons.2 ⟨hmoons, List.forall_mem_singleton.2 horbit⟩

theorem decode_encode_mars :
    systems.build = .ok ⟨[orbit, moon, planet]⟩ ∧ planet ∈ [orbit, moon, planet] ∧
      planet.isOwned = false ∧ planet.KeyReadable ∧ planet.Complete mars ∧
      ∃ document, planet.encode mars = .ok document ∧
        document.get? idElement =
          some (.document [("star", .string "Sun"), ("place", .int32 4)]) ∧
        planet.decode document = .ok mars := by
  have hkey : planet.KeyReadable :=
    ⟨fun h ↦ absurd h (by decide), fun _ ↦ by simp [planet, Property.plain],
      by simp [planet, Property.plain, EntityType.isKey]⟩
  have hmem : planet ∈ [orbit, moon, planet] := by simp
  obtain ⟨document, hencode, hdecode⟩ :=
    decode_encode (m := systems) rfl hmem rfl hkey complete_mars
  refine ⟨rfl, hmem, rfl, hkey, complete_mars, document, hencode, ?_, hdecode⟩
  cases hencode
  rfl

/-- Bodies whose key is declared to be stored under a name of its own. -/
def bodies : ModelDeclaration :=
  ⟨.asDeclared, [⟨"Body", false, none, ["Code"],
    [{ declared "Code" .string with element := some "code" }, declared "Mass" .int32], [], none⟩]⟩

def body : EntityType :=
  ⟨"Body", some "Body",
    [{ Property.plain "Code" (.scalar .string) with element := "code" },
      Property.plain "Mass" (.scalar .int32)],
    [{ Property.plain "Code" (.scalar .string) with element := "code" }], [], none⟩

def halley : Entity := ⟨"Body", [("Code", .string "1P"), ("Mass", .int32 22)]⟩

/-- Double stars whose key has two parts of one name. -/
def doubleStars : ModelDeclaration :=
  ⟨.asDeclared, [⟨"DoubleStar", false, none, ["First", "Second"],
    [{ declared "First" .string with element := some "star" },
      { declared "Second" .string with element := some "star" }], [], none⟩]⟩

def doubleStar : EntityType :=
  ⟨"DoubleStar", some "DoubleStar",
    [{ Property.plain "First" (.scalar .string) with element := "star" },
      { Property.plain "Second" (.scalar .string) with element := "star" }],
    [{ Property.plain "First" (.scalar .string) with element := "star" },
      { Property.plain "Second" (.scalar .string) with element := "star" }], [], none⟩

def starPair (first second : String) : Entity :=
  ⟨"DoubleStar", [("First", .string first), ("Second", .string second)]⟩

/-- The key of a body is written under `_id` and looked for under its own name.  The parts of the key
of a double star are written over each other. -/
theorem decode_misses_key :
    (bodies.build = .ok ⟨[body]⟩ ∧ body.isOwned = false ∧ body.Complete halley ∧
      body.encode halley = .ok [(idElement, .string "1P"), ("Mass", .int32 22)] ∧
      body.decode [(idElement, .string "1P"), ("Mass", .int32 22)] =
        .error (.missingElement "Body" "code")) ∧
    (doubleStars.build = .ok ⟨[doubleStar]⟩ ∧ doubleStar.isOwned = false ∧
      doubleStar.Complete (starPair "Sirius A" "Sirius B") ∧
      doubleStar.encode (starPair "Sirius A" "Sirius B") =
        .ok [(idElement, .document [("star", .string "Sirius B")])] ∧
      doubleStar.decode [(idElement, .document [("star", .string "Sirius B")])] =
        .ok (starPair "Sirius B" "Sirius B")) := by
  have hbody : body.Complete halley :=
    .mk rfl (by decide)
      (fun member ↦ Association.lookup_isSome.trans (List.Perm.mem_iff (by decide)))
      (List.forall_mem_cons.2 ⟨⟨_, rfl, rfl⟩, List.forall_mem_singleton.2 ⟨_, rfl, rfl⟩⟩)
      (by simp [body]) (by simp [body])
  have hstar : doubleStar.Complete (starPair "Sirius A" "Sirius B") :=
    .mk rfl (by decide)
      (fun member ↦ Association.lookup_isSome.trans (List.Perm.mem_iff (by decide)))
      (List.forall_mem_cons.2 ⟨⟨_, rfl, rfl⟩, List.forall_mem_singleton.2 ⟨_, rfl, rfl⟩⟩)
      (by simp [doubleStar]) (by simp [doubleStar])
  exact ⟨⟨rfl, rfl, hbody, rfl, rfl⟩, rfl, rfl, hstar, rfl, rfl⟩

end EntityType

end DocMapping
