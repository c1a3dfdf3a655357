import DocMapping.Proofs.Codec.Document

/-!
# Paths of Members

Every property, navigation and discriminator of an entity type has a path in its documents.  Those of
a type that was built do not run into each other, and their segments are names of fields, as far as
they lie outside of a composite key.  The names inside of such a key are not looked at.
-/

namespace DocMapping

/-! ## Names of fields -/

/-- A name of a field that paths reach. -/
structure IsFieldName (name : String) : Prop where
  nonempty : name ≠ ""
  segment : Text.IsSegment name
  plain : name.toList.head? ≠ some '$'

theorem Text.startsWith_dollar {text : String} :
    startsWith text "$" = true ↔ text.toList.head? = some '$' := by
  change ['$'].isPrefixOf text.toList = true ↔ _
  cases text.toList with
  | nil => simp
  | cons c rest => simpa using eq_comm

theorem isElementName_iff {element : String} :
    isElementName element = true ↔ IsFieldName element := by
  unfold isElementName
  rw [Bool.not_eq_true', Bool.or_eq_false_iff, Bool.or_eq_false_iff, beq_eq_false_iff_ne]
  constructor
  · rintro ⟨⟨hnonempty, hpoint⟩, hdollar⟩
    refine ⟨hnonempty, fun hmem ↦ ?_, fun hhead ↦ ?_⟩
    · exact Bool.eq_false_iff.1 hpoint (Text.contains_point.2 hmem)
    · exact Bool.eq_false_iff.1 hdollar (Text.startsWith_dollar.2 hhead)
  · rintro ⟨hnonempty, hsegment, hplain⟩
    refine ⟨⟨hnonempty, Bool.eq_false_iff.2 fun hpoint ↦ ?_⟩,
      Bool.eq_false_iff.2 fun hdollar ↦ ?_⟩
    · exact hsegment (Text.contains_point.1 hpoint)
    · exact hplain (Text.startsWith_dollar.1 hdollar)

theorem isFieldName_idElement : IsFieldName idElement :=
  isElementName_iff.1 (by decide)

/-! ## Paths -/

theorem Document.apart_singleton {name other : String} :
    Apart [name] [other] ↔ name ≠ other := by
  rw [apart_cons]
  simp [Apart]

theorem Document.apart_pair {name first second : String} :
    Apart [name, first] [name, second] ↔ first ≠ second := by
  rw [apart_cons, apart_singleton]
  simp

namespace EntityType

/-- The properties that lie inside of a composite key. -/
def keyed (t : EntityType) : List Property :=
  t.properties.filter fun p ↦ t.hasCompositeKey && t.isKey p.name

/-- The elements of all members that do not lie inside of a composite key. -/
def outerElements (t : EntityType) : List String :=
  (t.properties.filter fun p ↦ !(t.hasCompositeKey && t.isKey p.name)).map (·.element) ++
    t.navigations.map (·.element) ++ t.discriminator.toList.map (·.element)

/-- The paths of all members. -/
def paths (t : EntityType) : List (List String) :=
  t.properties.map t.elementPath ++ t.navigations.map (fun n ↦ [n.element]) ++
    t.discriminator.toList.map fun d ↦ [d.element]

/-- The path leads to a part of a composite key. -/
def InKey (path : List String) : Prop := ∃ part, path = [idElement, part]

/-- No path of a member leads to or through another member, and all of them consist of names of
fields. -/
structure Unambiguous (t : EntityType) : Prop where
  apart : t.paths.Pairwise Document.Apart
  named : ∀ path ∈ t.paths, ∀ segment ∈ path, IsFieldName segment

variable {t : EntityType}

theorem keyed_of_not_composite (h : t.hasCompositeKey = false) : t.keyed = [] := by
  unfold keyed
  simp [h]

theorem elements_eq (t : EntityType) :
    t.elements = t.outerElements ++ if t.hasCompositeKey then [idElement] else [] := rfl

theorem WellFormed.nodup_outerElements (h : t.WellFormed) : t.outerElements.Nodup := by
  have hdistinct := h.distinct
  rw [elements_eq] at hdistinct
  exact (List.nodup_append.1 hdistinct).1

theorem WellFormed.isFieldName (h : t.WellFormed) {element : String}
    (helement : element ∈ t.outerElements) : IsFieldName element := by
  refine isElementName_iff.1 (h.valid element ?_)
  rw [elements_eq]
  exact List.mem_append_left _ helement

/-- Beside the parts of a composite key nothing else is stored under `_id`. -/
theorem WellFormed.ne_idElement (h : t.WellFormed) {p : Property} (hp : p ∈ t.keyed)
    {element : String} (helement : element ∈ t.outerElements) : element ≠ idElement := by
  have hcomposite : t.hasCompositeKey = true := by
    by_contra hsingle
    rw [keyed_of_not_composite (Bool.eq_false_iff.2 hsingle)] at hp
    cases hp
  have hdistinct := h.distinct
  rw [elements_eq, hcomposite, if_pos rfl] at hdistinct
  exact (List.nodup_append.1 hdistinct).2.2 element helement idElement List.mem_cons_self

/-- Paths lead to an element of the document or to one of its key. -/
theorem perm_paths (t : EntityType) : t.paths.Perm
    (t.outerElements.map (fun element ↦ [element]) ++
      t.keyed.map fun p ↦ [idElement, p.element]) := by
  let inKey : Property → Bool := fun p ↦ t.hasCompositeKey && t.isKey p.name
  have hkeyed : (t.properties.filter inKey).map t.elementPath =
      t.keyed.map fun p ↦ [idElement, p.element] :=
    List.map_congr_left fun p hp ↦ if_pos (List.mem_filter.1 hp).2
  have houter : (t.properties.filter fun p ↦ !inKey p).map t.elementPath =
      ((t.properties.filter fun p ↦ !inKey p).map (·.element)).map fun element ↦ [element] := by
    rw [List.map_map]
    refine List.map_congr_left fun p hp ↦ if_neg ?_
    exact Bool.not_eq_true _ ▸ (Bool.not_eq_true' _).mp (List.mem_filter.1 hp).2
  have hproperties := (List.filter_append_perm inKey t.properties).map t.elementPath
  rw [List.map_append, hkeyed, houter] at hproperties
  have hothers : t.outerElements.map (fun element ↦ [element]) =
      ((t.properties.filter fun p ↦ !inKey p).map (·.element)).map (fun element ↦ [element]) ++
        (t.navigations.map (fun n ↦ [n.element]) ++
          t.discriminator.toList.map fun d ↦ [d.element]) := by
    unfold outerElements
    simp only [List.map_append, List.map_map, Function.comp_def, List.append_assoc, inKey]
  unfold paths
  rw [List.append_assoc, hothers]
  refine (hproperties.symm.append_right _).trans ?_
  rw [List.append_assoc]
  exact List.perm_append_comm

/-- What holds of every element outside of the key and of every part of the key holds of all
paths. -/
theorem forall_mem_paths {P : List String → Prop} : (∀ path ∈ t.paths, P path) ↔
    (∀ element ∈ t.outerElements, P [element]) ∧ ∀ p ∈ t.keyed, P [idElement, p.element] := by
  simp only [t.perm_paths.mem_iff, List.forall_mem_append, List.forall_mem_map]

/-- Members outside of a composite key do not run into each other and stay out of the key, so that
only parts of the key are left to be compared. -/
theorem WellFormed.pairwise_paths (h : t.WellFormed) {r : List String → List String → Prop}
    (hsymm : ∀ {path other}, r path other → r other path)
    (happart : ∀ {path other}, Document.Apart path other → r path other) :
    t.paths.Pairwise r ↔
      t.keyed.Pairwise fun p q ↦ r [idElement, p.element] [idElement, q.element] := by
  have houter : (t.outerElements.map fun element ↦ [element]).Pairwise r :=
    List.pairwise_map.2 (h.nodup_outerElements.imp fun hne ↦
      happart (Document.apart_singleton.2 hne))
  have hcross : ∀ path ∈ t.outerElements.map (fun element ↦ [element]),
      ∀ other ∈ t.keyed.map (fun p ↦ [idElement, p.element]), r path other := by
    simp only [List.forall_mem_map]
    intro element helement p hp
    exact happart (Document.apart_cons.2 fun heq ↦ absurd heq (h.ne_idElement hp helement))
  rw [t.perm_paths.pairwise_iff hsymm, List.pairwise_append, List.pairwise_map (l := t.keyed)]
  exact ⟨fun hall ↦ hall.2.1, fun hkeyed ↦ ⟨houter, hkeyed, hcross⟩⟩

theorem WellFormed.unambiguous_iff (h : t.WellFormed) : t.Unambiguous ↔
    (t.keyed.map (·.element)).Nodup ∧ ∀ p ∈ t.keyed, IsFieldName p.element := by
  have hapart : t.paths.Pairwise Document.Apart ↔ (t.keyed.map (·.element)).Nodup := by
    rw [h.pairwise_paths Document.Apart.symm id, List.nodup_iff_pairwise_ne, List.pairwise_map]
    simp only [Document.apart_pair]
  have hnamed : (∀ path ∈ t.paths, ∀ segment ∈ path, IsFieldName segment) ↔
      ∀ p ∈ t.keyed, IsFieldName p.element := by
    rw [forall_mem_paths]
    constructor
    · exact fun hall p hp ↦ hall.2 p hp p.element (by simp)
    · refine fun hkeyed ↦ ⟨fun element helement ↦ ?_, fun p hp ↦ ?_⟩
      · exact List.forall_mem_singleton.2 (h.isFieldName helement)
      · exact List.forall_mem_cons.2
          ⟨isFieldName_idElement, List.forall_mem_singleton.2 (hkeyed p hp)⟩
  rw [← hapart, ← hnamed]
  exact ⟨fun ⟨happart, hnames⟩ ↦ ⟨happart, hnames⟩, fun ⟨happart, hnames⟩ ↦ ⟨happart, hnames⟩⟩

/-- Of an accepted model the paths of every type are unambiguous if and only if those are that lie
inside of its key, which is so in particular where the key is no document.  Nothing else is ever
ambiguous. -/
theorem paths_of_build {m : ModelDeclaration} {model : Model} (hmodel : m.build = .ok model)
    (ht : t ∈ model.entities) :
    (t.Unambiguous ↔ (t.keyed.map (·.element)).Nodup ∧ ∀ p ∈ t.keyed, IsFieldName p.element) ∧
      (t.hasCompositeKey = false → t.Unambiguous) ∧
      t.paths.Pairwise (fun path other ↦ Document.Apart path other ∨ InKey path ∧ InKey other) ∧
      ∀ path ∈ t.paths, path ≠ [] ∧ ((∀ segment ∈ path, IsFieldName segment) ∨ InKey path) := by
  have h := ModelDeclaration.wellFormed_of_build hmodel t ht
  have hkey : ∀ p : Property, InKey [idElement, p.element] := fun p ↦ ⟨p.element, rfl⟩
  refine ⟨h.unambiguous_iff, fun hsingle ↦ ?_, ?_, forall_mem_paths.2 ⟨?_, ?_⟩⟩
  · rw [h.unambiguous_iff, keyed_of_not_composite hsingle]
    simp
  · rw [h.pairwise_paths (fun hrelated ↦ hrelated.imp Document.Apart.symm And.symm) .inl]
    exact List.pairwise_of_forall fun p q ↦ .inr ⟨hkey p, hkey q⟩
  · exact fun element helement ↦
      ⟨by simp, .inl (List.forall_mem_singleton.2 (h.isFieldName helement))⟩
  · exact fun p _ ↦ ⟨by simp, .inr (hkey p)⟩

/-! ## Comets and stars -/

/-- A text that is stored under a name of its own. -/
def named (name element : String) : PropertyDeclaration :=
  ⟨name, .scalar .string, some element, false, .natural, .utc, false, false, .never, false,
    .eastern⟩

/-- Comets are known by the year of their discovery and a number, and have an orbit. -/
def comets : ModelDeclaration :=
  ⟨.camelCase,
    [⟨"Orbit", true, none, [], [named "Days" "days"], [], none⟩,
    ⟨"Comet", false, none, ["Year", "Number"],
      [named "Year" "year", named "Number" "orbit", named "Name" "name"],
      [⟨"Orbit", "Orbit", none, none, true⟩], some ⟨"kind", "comet"⟩⟩]⟩

def storedText (name element : String) : Property :=
  { Property.plain name (.scalar .string) with element }

def comet : EntityType :=
  ⟨"Comet", some "Comet",
    [storedText "Year" "year", storedText "Number" "orbit", storedText "Name" "name"],
    [storedText "Year" "year", storedText "Number" "orbit"],
    [⟨"Orbit", "orbit", ⟨"Orbit", none, [storedText "Days" "days"], [], [], none⟩, none, true⟩],
    some ⟨"kind", "comet"⟩⟩

theorem paths_of_build_comet :
    comets.build = .ok ⟨[⟨"Orbit", none, [storedText "Days" "days"], [], [], none⟩, comet]⟩ ∧
      comet.paths = [["_id", "year"], ["_id", "orbit"], ["name"], ["orbit"], ["kind"]] ∧
      comet.Unambiguous := by
  have hbuild : comets.build =
    .ok ⟨[⟨"Orbit", none, [storedText "Days" "days"], [], [], none⟩, comet]⟩ := rfl
  obtain ⟨hiff, -⟩ := paths_of_build hbuild (List.mem_cons_of_mem _ List.mem_cons_self)
  have hnames : ∀ p ∈ comet.keyed, IsFieldName p.element :=
    List.forall_mem_cons.2 ⟨isElementName_iff.1 (by decide),
      List.forall_mem_singleton.2 (isElementName_iff.1 (by decide))⟩
  exact ⟨hbuild, rfl, hiff.2 ⟨by decide, hnames⟩⟩

/-- The key of a double star has two parts of one name, that of a variable star names that no path
reaches. -/
def stars : ModelDeclaration :=
  ⟨.asDeclared,
    [⟨"DoubleStar", false, none, ["First", "Second"], [named "First" "star", named "Second" "star"],
      [], none⟩,
    ⟨"VariableStar", false, none, ["Name", "Period"], [named "Name" "", named "Period" "$days.10"],
      [], none⟩]⟩

def doubled : EntityType :=
  ⟨"DoubleStar", some "DoubleStar", [storedText "First" "star", storedText "Second" "star"],
    [storedText "First" "star", storedText "Second" "star"], [], none⟩

def variableStar : EntityType :=
  ⟨"VariableStar", some "VariableStar", [storedText "Name" "", storedText "Period" "$days.10"],
    [storedText "Name" "", storedText "Period" "$days.10"], [], none⟩

/-- Parts of a key may have one name, and names that are none of fields. -/
theorem build_repeats_paths :
    stars.build = .ok ⟨[doubled, variableStar]⟩ ∧
      doubled.paths = [["_id", "star"], ["_id", "star"]] ∧ ¬doubled.paths.Pairwise Document.Apart ∧
      variableStar.paths = [["_id", ""], ["_id", "$days.10"]] ∧ ¬variableStar.Unambiguous := by
  refine ⟨rfl, rfl, fun happart ↦ ?_, rfl, fun hstar ↦ ?_⟩
  · exact (List.pairwise_pair.1 happart).1 (List.prefix_refl _)
  · have hempty : IsFieldName "" := hstar.named ["_id", ""] List.mem_cons_self "" (by simp)
    exact hempty.nonempty rfl

end EntityType

end DocMapping
