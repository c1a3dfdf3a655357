import DocMapping.Change.Difference
import DocMapping.Proofs.Codec.Document

/-!
# What Differences Assign

The paths at which two entities of one type differ are described without looking at documents.  Their
difference has one assignment for each of these paths and no others, and every assignment carries what
the document of the second entity holds at its path.  No path leads through another, because names of
elements are distinct at every level.  The difference of two entities that can be stored exists.
-/

namespace DocMapping.EntityType

/-! ## Changed paths -/

/-- Both values are entities of a navigation to a single one. -/
def IsEntered (n : Navigation EntityType) (before after : Value) : Prop :=
  n.container = none ∧ before.entity?.isSome ∧ after.entity?.isSome

mutual

/-- Two entities differ at a path: in a property by its comparer, or in what a navigation holds. -/
inductive ChangedAt : EntityType → Entity → Entity → List String → Prop
  | property {t : EntityType} {before after : Entity} {p : Property} (hp : p ∈ t.storedProperties)
      (h : p.comparer.equals (before.value p.name) (after.value p.name) = false) :
      ChangedAt t before after [p.element]
  | navigation {t : EntityType} {before after : Entity} {n : Navigation EntityType}
      {path : List String} (hn : n ∈ t.navigations)
      (h : OwnedChangedAt n (before.value n.name) (after.value n.name) path) :
      ChangedAt t before after (n.element :: path)

/-- What a navigation holds differs as a whole, or inside of the entities on both sides. -/
inductive OwnedChangedAt : Navigation EntityType → Value → Value → List String → Prop
  | whole {n : Navigation EntityType} {before after : Value} (hwhole : ¬IsEntered n before after)
      (h : before.structuralEq after = false) : OwnedChangedAt n before after []
  | inside {n : Navigation EntityType} {before after : Value} {old new : Entity}
      {path : List String} (hsingle : n.container = none) (hbefore : before.entity? = some old)
      (hafter : after.entity? = some new) (h : ChangedAt n.target old new path) :
      OwnedChangedAt n before after path

end

theorem ChangedAt.ne_nil {t : EntityType} {before after : Entity} {path : List String}
    (h : ChangedAt t before after path) : path ≠ [] := by
  cases h <;> simp

/-- A changed path begins with an element of a property or a navigation. -/
theorem ChangedAt.head_mem {t : EntityType} {before after : Entity} {name : String}
    {path : List String} (h : ChangedAt t before after (name :: path)) :
    name ∈ t.storedProperties.map (·.element) ++ t.navigations.map (·.element) := by
  cases h with
  | property hp _ => exact List.mem_append_left _ (List.mem_map_of_mem hp)
  | navigation hn _ => exact List.mem_append_right _ (List.mem_map_of_mem hn)

theorem ownedChangedAt_whole {n : Navigation EntityType} {before after : Value}
    (h : ¬IsEntered n before after) {path : List String} :
    OwnedChangedAt n before after path ↔ path = [] ∧ before.structuralEq after = false := by
  constructor
  · rintro (⟨-, h⟩ | ⟨hsingle, hb, ha, -⟩)
    · exact ⟨rfl, h⟩
    · exact absurd ⟨hsingle, by rw [hb]; rfl, by rw [ha]; rfl⟩ h
  · rintro ⟨rfl, hdiffer⟩
    exact .whole h hdiffer

theorem ownedChangedAt_inside {n : Navigation EntityType} {before after : Value} {old new : Entity}
    (hsingle : n.container = none) (hbefore : before.entity? = some old)
    (hafter : after.entity? = some new) {path : List String} :
    OwnedChangedAt n before after path ↔ ChangedAt n.target old new path := by
  constructor
  · rintro (⟨hwhole, -⟩ | ⟨-, hb, ha, h⟩)
    · exact absurd ⟨hsingle, by rw [hbefore]; rfl, by rw [hafter]; rfl⟩ hwhole
    · cases hbefore.symm.trans hb
      cases hafter.symm.trans ha
      exact h
  · exact .inside hsingle hbefore hafter

/-! ## Assignments -/

open Document (Apart assignedPath)

/-- At each of some paths, all below `owners`, there is one assignment, whose value has a property
that goes by the path. -/
structure Assigns (owners : List String) (changed : List String → Prop)
    (holds : List String → Bson → Prop) (assignments : Document) : Prop where
  sound : ∀ a ∈ assignments, ∃ path, assignedPath a = owners ++ path ∧ changed path ∧ holds path a.2
  complete : ∀ path, changed path → ∃ a ∈ assignments, assignedPath a = owners ++ path
  apart : assignments.Pairwise fun a b ↦ Apart (assignedPath a) (assignedPath b)

section Parts

variable {owners : List String} {holds : List String → Bson → Prop}

theorem assigns_nil {changed : List String → Prop} (h : ∀ path, ¬changed path) :
    Assigns owners changed holds [] :=
  ⟨by simp, fun path hpath ↦ absurd hpath (h path), .nil⟩

theorem apart_append {path other : List String} :
    Apart (owners ++ path) (owners ++ other) ↔ Apart path other := by
  unfold Document.Apart
  rw [List.prefix_append_right_inj, List.prefix_append_right_inj]

theorem apart_of_ne {name first : String} (path other : List String) (h : name ≠ first) :
    Apart (name :: path) (first :: other) := by
  rw [Document.apart_cons]
  exact fun heq ↦ absurd heq h

/-- Assignments below different elements do not meet. -/
theorem Assigns.append {first second : List String → Prop} {left right : Document}
    (hleft : Assigns owners first holds left) (hright : Assigns owners second holds right)
    (happart : ∀ path other, first path → second other → Apart path other) :
    Assigns owners (fun path ↦ first path ∨ second path) holds (left ++ right) := by
  refine ⟨fun a ha ↦ ?_, fun path hpath ↦ ?_, List.pairwise_append.2 ⟨hleft.apart, hright.apart,
    fun a ha b hb ↦ ?_⟩⟩
  · rcases List.mem_append.1 ha with ha | ha
    · obtain ⟨path, htarget, hchanged, hvalue⟩ := hleft.sound a ha
      exact ⟨path, htarget, .inl hchanged, hvalue⟩
    · obtain ⟨path, htarget, hchanged, hvalue⟩ := hright.sound a ha
      exact ⟨path, htarget, .inr hchanged, hvalue⟩
  · rcases hpath with hpath | hpath
    · obtain ⟨a, ha, htarget⟩ := hleft.complete path hpath
      exact ⟨a, List.mem_append_left _ ha, htarget⟩
    · obtain ⟨a, ha, htarget⟩ := hright.complete path hpath
      exact ⟨a, List.mem_append_right _ ha, htarget⟩
  · obtain ⟨path, hpath, hfirst, -⟩ := hleft.sound a ha
    obtain ⟨other, hother, hsecond, -⟩ := hright.sound b hb
    rw [hpath, hother, apart_append]
    exact happart path other hfirst hsecond

/-- Assignments to a whole document have the changed paths. -/
theorem Assigns.of_mem {changed : List String → Prop} {assignments : Document}
    (h : Assigns [] changed holds assignments) {a : String × Bson} (ha : a ∈ assignments) :
    changed (assignedPath a) ∧ holds (assignedPath a) a.2 := by
  obtain ⟨path, hpath, hchanged⟩ := h.sound a ha
  rw [hpath]
  exact hchanged

theorem Assigns.congr {first second : List String → Prop} {assignments : Document}
    (h : Assigns owners first holds assignments) (hiff : ∀ path, first path ↔ second path) :
    Assigns owners second holds assignments := by
  have hsame : first = second := funext fun path ↦ propext (hiff path)
  exact hsame ▸ h

/-- A single assignment to an element. -/
theorem assigns_singleton {start name : String} (hstart : Text.Leads start owners)
    (hname : Text.IsSegment name) {value : Bson} (hvalue : holds [name] value) :
    Assigns owners (· = [name]) holds [(start ++ name, value)] := by
  have htarget : assignedPath (start ++ name, value) = owners ++ [name] := by
    rw [← Text.segments_of_isSegment hname, ← hstart name]
    rfl
  refine ⟨fun a ha ↦ ?_, fun path hpath ↦ ⟨_, List.mem_singleton_self _, ?_⟩,
    List.pairwise_singleton _ _⟩
  · rw [List.mem_singleton.1 ha]
    exact ⟨[name], htarget, rfl, hvalue⟩
  · rw [hpath, htarget]

/-- Assignments inside of an element. -/
theorem Assigns.below {name : String} {changed : List String → Prop}
    {inner : List String → Bson → Prop} {assignments : Document}
    (h : Assigns (owners ++ [name]) changed inner assignments)
    (hinner : ∀ path value, changed path → inner path value → holds (name :: path) value) :
    Assigns owners (fun path ↦ ∃ rest, path = name :: rest ∧ changed rest) holds assignments := by
  refine ⟨fun a ha ↦ ?_, ?_, h.apart⟩
  · obtain ⟨path, htarget, hchanged, hvalue⟩ := h.sound a ha
    exact ⟨name :: path, by rw [htarget, List.append_assoc]; rfl, ⟨path, rfl, hchanged⟩,
      hinner path a.2 hchanged hvalue⟩
  · rintro _ ⟨rest, rfl, hrest⟩
    obtain ⟨a, ha, htarget⟩ := h.complete rest hrest
    exact ⟨a, ha, by rw [htarget, List.append_assoc]; rfl⟩

end Parts

/-! ## Values between two documents -/

/-- As far as the entities can be stored, the document of the first holds something at the path, and
that of the second holds the value. -/
structure Fits (t : EntityType) (before after : Entity) (path : List String) (value : Bson) : Prop
    where
  old : ∀ document, t.encode before = .ok document → (document.lookup path).isSome
  new : ∀ document, t.encode after = .ok document → document.lookup path = some value

section Fits

variable {t : EntityType} {before after : Entity} {value : Bson}

theorem WellFormed.fits_property (h : t.WellFormed) {p : Property} (hp : p ∈ t.storedProperties)
    (hvalue : p.encode (after.value p.name) = .ok value) : Fits t before after [p.element] value := by
  constructor
  · intro document hdocument
    obtain ⟨_, -, hget⟩ := (h.encoded hdocument).property p hp
    exact Option.isSome_of_mem hget
  · intro document hdocument
    obtain ⟨_, hsame, hget⟩ := (h.encoded hdocument).property p hp
    cases hvalue.symm.trans hsame
    exact hget

theorem WellFormed.fits_navigation (h : t.WellFormed) {n : Navigation EntityType}
    (hn : n ∈ t.navigations) (hvalue : encodeNavigation n (after.value n.name) = .ok value) :
    Fits t before after [n.element] value := by
  constructor
  · intro document hdocument
    obtain ⟨_, -, hget⟩ := (h.encoded hdocument).navigation n hn
    exact Option.isSome_of_mem hget
  · intro document hdocument
    obtain ⟨_, hsame, hget⟩ := (h.encoded hdocument).navigation n hn
    cases hvalue.symm.trans hsame
    exact hget

/-- The document of an owned entity lies in that of its owner. -/
theorem WellFormed.lookup_owned (h : t.WellFormed) {n : Navigation EntityType}
    (hn : n ∈ t.navigations) (hsingle : n.container = none) {e owned : Entity}
    (howned : (e.value n.name).entity? = some owned) {document : Document}
    (hdocument : t.encode e = .ok document) :
    ∃ inner, n.target.encode owned = .ok inner ∧ ∀ path, path ≠ [] →
      document.lookup (n.element :: path) = inner.lookup path := by
  obtain ⟨stored, hstored, hget⟩ := (h.encoded hdocument).navigation n hn
  rw [encodeNavigation_entity hsingle howned] at hstored
  obtain ⟨inner, hinner, rfl⟩ := Outcome.map_eq_ok.1 hstored
  refine ⟨inner, hinner, fun path hpath ↦ ?_⟩
  rw [Document.lookup_cons _ _ hpath, Document.nested?_of_get? hget]
  rfl

theorem WellFormed.fits_inside (h : t.WellFormed) {n : Navigation EntityType}
    (hn : n ∈ t.navigations) (hsingle : n.container = none) {b a : Entity}
    (hb : (before.value n.name).entity? = some b) (ha : (after.value n.name).entity? = some a)
    {path : List String} (hpath : path ≠ []) (hfits : Fits n.target b a path value) :
    Fits t before after (n.element :: path) value := by
  constructor
  · intro document hdocument
    obtain ⟨inner, hinner, hlookup⟩ := h.lookup_owned hn hsingle hb hdocument
    rw [hlookup path hpath]
    exact hfits.old inner hinner
  · intro document hdocument
    obtain ⟨inner, hinner, hlookup⟩ := h.lookup_owned hn hsingle ha hdocument
    rw [hlookup path hpath]
    exact hfits.new inner hinner

end Fits

/-! ## Differences -/

section Differences

variable {start : String} {owners : List String} {holds : List String → Bson → Prop}
  {changes : Document}

theorem assigns_properties (holds : List String → Bson → Prop) (hstart : Text.Leads start owners)
    {after : Entity}
    {properties : List Property} (hdistinct : (properties.map (·.element)).Nodup)
    (h : ∀ p ∈ properties, Text.IsSegment p.element ∧
      ∀ value, p.encode (after.value p.name) = .ok value → holds [p.element] value)
    (hchanges : (properties.mapM fun p ↦ (p.encode (after.value p.name)).map fun value ↦
      (start ++ p.element, value)) = .ok changes) :
    Assigns owners (fun path ↦ ∃ p ∈ properties, path = [p.element]) holds changes := by
  induction properties generalizing changes with
  | nil =>
    cases hchanges
    exact assigns_nil (by simp)
  | cons p rest ih =>
    obtain ⟨⟨hsegment, hholds⟩, hrest⟩ := List.forall_mem_cons.1 h
    obtain ⟨hp, hdistinct⟩ := List.nodup_cons.1 hdistinct
    rw [List.mapM_cons] at hchanges
    obtain ⟨_, hfirst, hchanges⟩ := Outcome.bind_eq_ok.1 hchanges
    obtain ⟨others, hothers, hchanges⟩ := Outcome.bind_eq_ok.1 hchanges
    obtain ⟨value, hvalue, rfl⟩ := Outcome.map_eq_ok.1 hfirst
    cases hchanges
    have hsingle := assigns_singleton hstart hsegment (hholds value hvalue)
    refine (hsingle.append (ih hdistinct hrest hothers) ?_).congr fun path ↦ by simp
    rintro _ _ rfl ⟨q, hq, rfl⟩
    exact apart_of_ne [] [] fun heq ↦ hp (List.mem_map.2 ⟨q, hq, heq.symm⟩)

theorem assigns_navigations (holds : List String → Bson → Prop) {before after : Entity}
    {navigations : List (Navigation EntityType)}
    (hdistinct : (navigations.map (·.element)).Nodup)
    (h : ∀ n ∈ navigations, ∀ changes,
      diffNavigation start (before.value n.name) (after.value n.name) n = .ok changes →
      Assigns owners (fun path ↦ ∃ rest, path = n.element :: rest ∧
        OwnedChangedAt n (before.value n.name) (after.value n.name) rest) holds changes)
    (hchanges : diffNavigations start before after navigations = .ok changes) :
    Assigns owners (fun path ↦ ∃ n ∈ navigations, ∃ rest, path = n.element :: rest ∧
      OwnedChangedAt n (before.value n.name) (after.value n.name) rest) holds changes := by
  induction navigations generalizing changes with
  | nil =>
    rw [diffNavigations] at hchanges
    cases hchanges
    exact assigns_nil (by simp)
  | cons n rest ih =>
    obtain ⟨hn, hrest⟩ := List.forall_mem_cons.1 h
    obtain ⟨helement, hdistinct⟩ := List.nodup_cons.1 hdistinct
    rw [diffNavigations] at hchanges
    obtain ⟨first, hfirst, hchanges⟩ := Outcome.bind_eq_ok.1 hchanges
    obtain ⟨others, hothers, hchanges⟩ := Outcome.bind_eq_ok.1 hchanges
    cases hchanges
    refine ((hn first hfirst).append (ih hdistinct hrest hothers) ?_).congr fun path ↦ by simp
    rintro _ _ ⟨path, rfl, -⟩ ⟨other, hother, tail, rfl, -⟩
    exact apart_of_ne path tail fun heq ↦ helement (List.mem_map.2 ⟨other, hother, heq.symm⟩)

theorem diffNavigation_whole {n : Navigation EntityType} {before after : Value}
    (h : ¬IsEntered n before after) :
    diffNavigation start before after n =
      if before.structuralEq after then .ok []
      else (encodeNavigation n after).map fun value ↦ [(start ++ n.element, value)] := by
  obtain ⟨name, element, target, container, nullable⟩ := n
  rw [diffNavigation]
  rintro s old t new - rfl rfl rfl
  exact absurd ⟨rfl, rfl, rfl⟩ h

theorem diffNavigation_inside {n : Navigation EntityType} {before after : Value} {b a : Entity}
    (hsingle : n.container = none) (hbefore : before.entity? = some b)
    (hafter : after.entity? = some a) :
    diffNavigation start before after n =
      n.target.diffFrom (start ++ n.element ++ ".") b a := by
  obtain ⟨name, element, target, container, nullable⟩ := n
  cases hsingle
  cases before <;> cases hbefore
  cases after <;> cases hafter
  rw [diffNavigation]

theorem diffFrom_eq (t : EntityType) (start : String) (before after : Entity) :
    t.diffFrom start before after = do
      let properties ← t.diffProperties start before after
      let owned ← diffNavigations start before after t.navigations
      return properties ++ owned := by
  obtain ⟨name, collection, properties, keys, navigations, discriminator⟩ := t
  rw [diffFrom]

/-- Entities on both sides are compared, and everything else is compared as a whole. -/
theorem assigns_navigation (hstart : Text.Leads start owners) {n : Navigation EntityType}
    (hsegment : Text.IsSegment n.element) {before after : Value}
    (hwhole : ∀ value, encodeNavigation n after = .ok value → holds [n.element] value)
    (hinside : ∀ b a, n.container = none → before.entity? = some b → after.entity? = some a →
      n.target.diffFrom (start ++ n.element ++ ".") b a = .ok changes →
      Assigns owners (fun path ↦ ∃ rest, path = n.element :: rest ∧ ChangedAt n.target b a rest)
        holds changes)
    (hchanges : diffNavigation start before after n = .ok changes) :
    Assigns owners (fun path ↦ ∃ rest, path = n.element :: rest ∧
      OwnedChangedAt n before after rest) holds changes := by
  by_cases hentered : IsEntered n before after
  · obtain ⟨hsingle, hbefore, hafter⟩ := hentered
    obtain ⟨b, hb⟩ := Option.isSome_iff_exists.1 hbefore
    obtain ⟨a, ha⟩ := Option.isSome_iff_exists.1 hafter
    rw [diffNavigation_inside hsingle hb ha] at hchanges
    exact (hinside b a hsingle hb ha hchanges).congr fun path ↦ exists_congr fun rest ↦
      and_congr_right fun _ ↦ (ownedChangedAt_inside hsingle hb ha).symm
  · rw [diffNavigation_whole hentered] at hchanges
    cases hequal : before.structuralEq after with
    | true =>
      rw [hequal] at hchanges
      cases hchanges
      refine assigns_nil ?_
      rintro _ ⟨rest, -, hrest⟩
      rw [ownedChangedAt_whole hentered, hequal] at hrest
      cases hrest.2
    | false =>
      rw [hequal, if_neg Bool.false_ne_true] at hchanges
      obtain ⟨value, hvalue, rfl⟩ := Outcome.map_eq_ok.1 hchanges
      refine (assigns_singleton hstart hsegment (hwhole value hvalue)).congr fun path ↦ ?_
      simp [ownedChangedAt_whole hentered, hequal]

end Differences

section Types

variable {t : EntityType} {start : String} {owners : List String} {before after : Entity}

/-- The difference of two entities assigns what has changed, and nothing else. -/
theorem WellFormed.diffFrom_assigns (h : t.WellFormed) (hstart : Text.Leads start owners)
    {changes : Document} (hchanges : t.diffFrom start before after = .ok changes) :
    Assigns owners (ChangedAt t before after) (Fits t before after) changes := by
  -- by induction on the owned types below this one, whose documents lie inside of its documents
  induction h generalizing start owners before after changes with
  | @mk t distinct valid keys owned targets ih =>
    have h : t.WellFormed := .mk distinct valid keys owned targets
    have hnames := h.nodup_bodyNames
    unfold bodyNames at hnames
    rw [List.append_assoc] at hnames
    obtain ⟨hpropertyNames, hnavigationNames, happart⟩ :=
      List.nodup_append.1 (List.nodup_append.1 hnames).2.1
    rw [diffFrom_eq] at hchanges
    obtain ⟨first, hfirst, hchanges⟩ := Outcome.bind_eq_ok.1 hchanges
    obtain ⟨others, hothers, hchanges⟩ := Outcome.bind_eq_ok.1 hchanges
    cases hchanges
    have hproperties := assigns_properties (Fits t before after) hstart
      (hpropertyNames.sublist (List.filter_sublist.map _)) (fun p hp ↦ by
        have hstored := (List.mem_filter.1 hp).1
        exact ⟨isSegment_of_isElementName (valid _ (element_mem_of_stored hstored)),
          fun value hvalue ↦ h.fits_property hstored hvalue⟩) hfirst
    have hnavigations := assigns_navigations (Fits t before after) hnavigationNames
      (fun n hn changes hchanges ↦ by
        have hsegment := isSegment_of_isElementName (valid _ (element_mem_of_navigation hn))
        refine assigns_navigation hstart hsegment (fun value hvalue ↦ h.fits_navigation hn hvalue)
          (fun b a hsingle hb ha hinside ↦ ?_) hchanges
        exact (ih n hn (hstart.concat hsegment) hinside).below fun path value hpath hfits ↦
          h.fits_inside hn hsingle hb ha hpath.ne_nil hfits) hothers
    refine (hproperties.append hnavigations ?_).congr fun path ↦ ?_
    · rintro _ _ ⟨p, hp, rfl⟩ ⟨n, hn, rest, rfl, -⟩
      exact apart_of_ne [] rest (happart _ (List.mem_map_of_mem (List.mem_filter.1 hp).1) _
        (List.mem_map_of_mem hn))
    · constructor
      · rintro (⟨p, hp, rfl⟩ | ⟨n, hn, rest, rfl, hrest⟩)
        · obtain ⟨hstored, hequal⟩ := List.mem_filter.1 hp
          exact .property hstored (by simpa using hequal)
        · exact .navigation hn hrest
      · rintro (⟨hp, hequal⟩ | ⟨hn, hrest⟩)
        · exact .inl ⟨_, List.mem_filter.2 ⟨hp, by simp [hequal]⟩, rfl⟩
        · exact .inr ⟨_, hn, _, rfl, hrest⟩

theorem exists_diffNavigations {navigations : List (Navigation EntityType)}
    (h : ∀ n ∈ navigations, ∃ changes,
      diffNavigation start (before.value n.name) (after.value n.name) n = .ok changes) :
    ∃ changes, diffNavigations start before after navigations = .ok changes := by
  induction navigations with
  | nil => exact ⟨[], by rw [diffNavigations]⟩
  | cons n rest ih =>
    obtain ⟨⟨first, hfirst⟩, hrest⟩ := List.forall_mem_cons.1 h
    obtain ⟨others, hothers⟩ := ih hrest
    exact ⟨first ++ others, by rw [diffNavigations, hfirst, hothers]; rfl⟩

/-- Entities that can be stored have a difference. -/
theorem WellFormed.exists_diffFrom (h : t.WellFormed) (start : String) {old new : Document}
    (hold : t.encode before = .ok old) (hnew : t.encode after = .ok new) :
    ∃ changes, t.diffFrom start before after = .ok changes := by
  induction h generalizing start before after old new with
  | @mk t distinct valid keys owned targets ih =>
    have h : t.WellFormed := .mk distinct valid keys owned targets
    have hbefore := h.encoded hold
    have hafter := h.encoded hnew
    obtain ⟨first, hfirst⟩ : ∃ first, t.diffProperties start before after = .ok first := by
      refine Outcome.exists_mapM fun p hp ↦ ?_
      obtain ⟨value, hvalue, -⟩ := hafter.property p (List.mem_filter.1 hp).1
      exact ⟨_, by rw [hvalue]; rfl⟩
    have hnavigation : ∀ n ∈ t.navigations, ∃ changes,
        diffNavigation start (before.value n.name) (after.value n.name) n = .ok changes := by
      intro n hn
      obtain ⟨value, hvalue, -⟩ := hafter.navigation n hn
      by_cases hentered : IsEntered n (before.value n.name) (after.value n.name)
      · obtain ⟨hsingle, hb, ha⟩ := hentered
        obtain ⟨b, hb⟩ := Option.isSome_iff_exists.1 hb
        obtain ⟨a, ha⟩ := Option.isSome_iff_exists.1 ha
        obtain ⟨inner, hinner, -⟩ := h.lookup_owned hn hsingle hb hold
        obtain ⟨outer, houter, -⟩ := h.lookup_owned hn hsingle ha hnew
        rw [diffNavigation_inside hsingle hb ha]
        exact ih n hn _ hinner houter
      · rw [diffNavigation_whole hentered, hvalue]
        split
        · exact ⟨[], rfl⟩
        · exact ⟨_, rfl⟩
    obtain ⟨others, hothers⟩ := exists_diffNavigations hnavigation
    exact ⟨first ++ others, by rw [diffFrom_eq, hfirst, hothers]; rfl⟩

end Types

end DocMapping.EntityType
