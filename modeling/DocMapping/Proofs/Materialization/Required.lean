import DocMapping.Proofs.Codec.Readable
import DocMapping.Proofs.Materialization.Reduction

/-!
# Required Members

A member is required if it cannot be missing and lies in owned entities that cannot be missing
either.  A whole entity is only read from a document that has all of its required members, but for
those of an owner that is null.  A projection to a required member is less strict: it has no value if
the member alone is missing, and null if an owner is missing as well.
-/

namespace DocMapping

/-! ## Owners -/

namespace Document

variable {document : Document} {above path : List String}

/-- Nothing lies below an element that is missing. -/
theorem lookup_below (hne : above ≠ []) (habove : above <+: path)
    (h : document.lookup above = none) : document.lookup path = none := by
  obtain ⟨rest, rfl⟩ := habove
  by_cases hrest : rest = []
  · rwa [hrest, List.append_nil]
  · cases hfound : document.lookup (above ++ rest) with
    | none => rfl
    | some stored =>
      obtain ⟨nested, hnested⟩ := lookup_above hne hrest hfound
      rw [h] at hnested
      cases hnested

/-- What the element at a path lies in is there and not null. -/
def HasOwners (document : Document) (path : List String) : Prop :=
  ∀ above, above <+: path → above ≠ [] → above ≠ path →
    document.lookup above ≠ none ∧ document.lookup above ≠ some .null

theorem hasOwners_iff : document.HasOwners path ↔ document.lacksParent path = false := by
  rw [← Bool.not_eq_true, lacksParent_iff]
  constructor
  · rintro howners ⟨depth, hpos, hlength, hlacks⟩
    have hdepth : (path.take depth).length = depth := by
      rw [List.length_take]
      omega
    obtain ⟨hnone, hnull⟩ := howners (path.take depth) (List.take_prefix depth path)
      (List.ne_nil_of_length_pos (by omega)) fun hpath ↦ by
        rw [hpath] at hdepth
        omega
    exact hlacks.elim hnone hnull
  · intro hlacks above habove hne hproper
    have htake := List.prefix_iff_eq_take.1 habove
    have hlength : above.length < path.length :=
      Nat.lt_of_le_of_ne habove.length_le fun hlength ↦ hproper (habove.eq_of_length hlength)
    rw [htake]
    exact not_or.1 fun hmissing ↦
      hlacks ⟨above.length, List.length_pos_of_ne_nil hne, hlength, hmissing⟩

end Document

namespace EntityType

/-! ## Members that cannot be missing -/

/-- An owned entity at a path of navigations none of which can be missing. -/
inductive Includes (root : EntityType) : List String → EntityType → Prop
  | self : Includes root [] root
  | owned {path : List String} {t : EntityType} (h : Includes root path t)
      {n : Navigation EntityType} (hn : n ∈ t.navigations) (hsingle : n.container = none)
      (hnullable : n.nullable = false) : Includes root (path ++ [n.element]) n.target

/-- A member that cannot be missing of an entity that cannot be missing. -/
inductive Requires (root : EntityType) : Target → Prop
  | property {path : List String} {t : EntityType} (h : Includes root path t) {p : Property}
      (hp : p ∈ t.properties) (hnullable : p.nullable = false) :
      Requires root (.property (path ++ t.elementPath p) p)
  | entity {path : List String} {t : EntityType} (h : Includes root path t)
      {n : Navigation EntityType} (hn : n ∈ t.navigations) (hsingle : n.container = none)
      (hnullable : n.nullable = false) :
      Requires root (.entity (path ++ [n.element]) n.target false)
  | ownedCollection {path : List String} {t : EntityType} (h : Includes root path t)
      {n : Navigation EntityType} (hn : n ∈ t.navigations) {container : Container}
      (hcollection : n.container = some container) (hnullable : n.nullable = false) :
      Requires root (.ownedCollection (path ++ [n.element]) n.target container)

variable {root t : EntityType} {path : List String} {document : Document} {target : Target}

theorem Requires.path_ne_nil (h : root.Requires target) : target.path ≠ [] := by
  cases h with
  | @property _ t _ p => exact List.append_ne_nil_of_right_ne_nil _ (t.elementPath_ne_nil p)
  | entity | ownedCollection => exact List.append_ne_nil_of_right_ne_nil _ (by simp)

theorem Requires.isRequired (h : root.Requires target) : target.isRequired = true := by
  cases h with
  | property _ _ hnullable => simp [Target.isRequired, hnullable]
  | entity | ownedCollection => rfl

/-! ## Whole entities -/

/-- A property that cannot be missing is read from an element. -/
theorem lookup_of_decode {e : Entity} (h : t.decode document = .ok e) {p : Property}
    (hp : p ∈ t.properties) (hnullable : p.nullable = false) :
    ∃ stored, document.lookup (t.elementPath p) = some stored := by
  obtain ⟨value, hvalue⟩ := (exists_decode_iff.1 ⟨e, h⟩).1 p hp
  unfold readProperty at hvalue
  split at hvalue
  · next stored hlookup => exact ⟨stored, hlookup⟩
  · rw [hnullable] at hvalue
    cases hvalue

/-- A navigation that cannot be missing is read from an element. -/
theorem get?_of_decode {e : Entity} (h : t.decode document = .ok e) {n : Navigation EntityType}
    (hn : n ∈ t.navigations) (hnullable : n.nullable = false) :
    ∃ stored value, document.get? n.element = some stored ∧
      decodeNavigation n stored = .ok value := by
  obtain ⟨value, hvalue⟩ := (exists_decode_iff.1 ⟨e, h⟩).2 n hn
  unfold readNavigation at hvalue
  split at hvalue
  · next stored hget => exact ⟨stored, value, hget, hvalue⟩
  · rw [hnullable] at hvalue
    cases hvalue

/-- A whole entity is read together with those that it includes, unless one of them is null. -/
theorem Includes.descend_of_decode (h : root.Includes path t) {e : Entity}
    (hdecode : root.decode document = .ok e) :
    (∃ nested inner, document.descend path = some nested ∧ t.decode nested = .ok inner) ∨
      ∃ above, above <+: path ∧ document.lookup above = some .null := by
  induction h with
  | self => exact .inl ⟨document, e, rfl, hdecode⟩
  | @owned path t hincludes n hn hsingle hnullable ih =>
    obtain ⟨nested, inner, hnested, hinner⟩ | ⟨above, habove, hnull⟩ := ih
    · obtain ⟨stored, value, hget, hvalue⟩ := get?_of_decode hinner hn hnullable
      obtain ⟨rfl, -⟩ | ⟨owned, held, rfl, hheld, -⟩ := decodeNavigation_single hsingle hvalue
      · refine .inr ⟨path ++ [n.element], List.prefix_rfl, ?_⟩
        rw [Document.lookup_append document path (by simp), hnested]
        exact hget
      · refine .inl ⟨owned, held, ?_, hheld⟩
        rw [Document.descend_concat, hnested]
        exact Document.nested?_of_get? hget
    · exact .inr ⟨above, habove.trans (List.prefix_append path _), hnull⟩

/-- What an included entity is read with is there when a whole entity is read, unless something above
is null. -/
theorem Includes.lookup_of_decode (h : root.Includes path t) {e : Entity}
    (hdecode : root.decode document = .ok e) {rest : List String} (hrest : rest ≠ [])
    (hread : ∀ (nested : Document) inner, t.decode nested = .ok inner →
      ∃ stored, nested.lookup rest = some stored) :
    (∃ stored, document.lookup (path ++ rest) = some stored) ∨
      ∃ above, above <+: path ++ rest ∧ document.lookup above = some .null := by
  obtain ⟨nested, inner, hnested, hinner⟩ | ⟨above, habove, hnull⟩ := h.descend_of_decode hdecode
  · rw [Document.lookup_append document path hrest, hnested]
    exact .inl (hread nested inner hinner)
  · exact .inr ⟨above, habove.trans (List.prefix_append path rest), hnull⟩

/-- A whole entity is read from a document that has its required members, unless an owner of theirs
is null. -/
theorem Requires.lookup_of_decode (h : root.Requires target) {e : Entity}
    (hdecode : root.decode document = .ok e) :
    (∃ stored, document.lookup target.path = some stored) ∨
      ∃ above, above <+: target.path ∧ document.lookup above = some .null := by
  cases h with
  | @property path t hincludes p hp hnullable =>
    exact hincludes.lookup_of_decode hdecode (t.elementPath_ne_nil p) fun nested inner hinner ↦
      EntityType.lookup_of_decode hinner hp hnullable
  | entity hincludes hn _ hnullable | ownedCollection hincludes hn _ hnullable =>
    refine hincludes.lookup_of_decode hdecode (by simp) fun nested inner hinner ↦ ?_
    obtain ⟨stored, -, hget, -⟩ := get?_of_decode hinner hn hnullable
    exact ⟨stored, hget⟩

end EntityType

/-! ## Projections -/

/-- Only planned functions read members in elements. -/
theorem EntityType.Shapes.exists_project_of_lookup {t : EntityType} {projection : Projection}
    {shaper : Shaper} (h : t.Shapes projection shaper) {place : Place} {target : Target}
    (hplace : projection.lookup place = some (.stored target)) (hne : target.path ≠ []) :
    ∃ f : Lambda, (⟨f.parameter, t⟩ : Scope).project [] [] f.body = .ok (shaper, projection) := by
  cases h with
  | whole =>
    cases List.mem_singleton.1 (Association.mem_of_lookup hplace)
    exact absurd rfl hne
  | function f => cases hplace
  | projected f hproject => exact ⟨f, hproject⟩

/-- Reading a required member that is missing is an error as long as its owners are there and not
null, and then nothing is made of the document.  Otherwise the member reads as null.  The whole entity
cannot be read in either case, unless something on the way to the member is null. -/
theorem Model.plan_requires {model : Model} {fallback : Bool} {e : Expression} {plan : Plan}
    (hplan : model.plan fallback e = .ok plan) {place : Place} {target : Target}
    (hplace : plan.selection.projection.lookup place = some (.stored target))
    (hrequires : plan.selection.entity.Requires target) (parameters : Parameters)
    {document : Document} {element : List String} (hne : element ≠ [])
    (habove : element <+: target.path) (habsent : document.lookup element = none) :
    (document.HasOwners target.path →
      plan.readPlace parameters document place = .error (plan.missing target.path) ∧
        ∃ fault, plan.materialize parameters document = .error fault) ∧
    (¬document.HasOwners target.path →
      plan.readPlace parameters document place = .ok .null) ∧
    ((∀ above, above <+: target.path → document.lookup above ≠ some .null) →
      ∃ fault, plan.selection.entity.decode document = .error fault) := by
  have hmissing := Document.lookup_below hne habove habsent
  have hread : plan.readPlace parameters document place = plan.readTarget document target := by
    unfold Plan.readPlace
    rw [hplace]
  have htarget := Plan.readTarget_required (p := plan) hrequires.path_ne_nil hrequires.isRequired
    hmissing
  rw [Document.hasOwners_iff, Bool.not_eq_false]
  refine ⟨fun howned ↦ ?_, fun hownerless ↦ ?_, fun hnull ↦ ?_⟩
  · have herror : plan.readTarget document target = .error (plan.missing target.path) := by
      calc
        plan.readTarget document target = plan.nullOr document target.path false := htarget
        _ = .error (plan.missing target.path) := by
          rw [Plan.nullOr, howned]
          rfl
    obtain ⟨f, hproject⟩ := (Model.plan_sound hplan).2.exists_project_of_lookup hplace
      hrequires.path_ne_nil
    exact ⟨hread.trans herror,
      Plan.exists_error_of_readTarget hproject parameters hplace herror⟩
  · calc
      plan.readPlace parameters document place = plan.readTarget document target := hread
      _ = plan.nullOr document target.path false := htarget
      _ = .ok .null := by
        rw [Plan.nullOr, hownerless]
        rfl
  · cases hdecode : plan.selection.entity.decode document with
    | error fault => exact ⟨fault, rfl⟩
    | ok back =>
      obtain ⟨stored, hfound⟩ | ⟨above, habove, hfound⟩ := hrequires.lookup_of_decode hdecode
      · rw [hmissing] at hfound
        cases hfound
      · exact absurd hfound (hnull above habove)

namespace Orbits

theorem requires_days :
    planet.Requires (.property ["Orbit", "Days"] (number "Days")) :=
  .property (p := number "Days")
    (.owned (n := ⟨"Orbit", "Orbit", orbit, none, false⟩) .self (.head []) rfl rfl) (.head []) rfl

end Orbits

theorem Model.plan_requires_days :
    Model.plan ⟨[Orbits.orbit, Orbits.planet]⟩ false Orbits.days = .ok Orbits.plan ∧
      (Orbits.circled []).lookup ["Orbit", "Days"] = none ∧
      (Orbits.circled []).HasOwners ["Orbit", "Days"] ∧
      Orbits.plan.readPlace [] (Orbits.circled []) [] =
        .error (.missingElement "Planet" "Orbit.Days") ∧
      ∃ fault, Orbits.plan.materialize [] (Orbits.circled []) = .error fault := by
  have habsent : (Orbits.circled []).lookup ["Orbit", "Days"] = none := rfl
  have howned : (Orbits.circled []).HasOwners ["Orbit", "Days"] := Document.hasOwners_iff.2 rfl
  exact ⟨Orbits.plan_days, habsent, howned, (Model.plan_requires Orbits.plan_days rfl
    Orbits.requires_days [] (List.cons_ne_nil _ _) List.prefix_rfl habsent).1 howned⟩

/-- Without an orbit its days read as null, although neither the orbit nor the planet can be read. -/
theorem Model.plan_defaults_days :
    Orbits.planets.build = .ok ⟨[Orbits.orbit, Orbits.planet]⟩ ∧
      Model.plan ⟨[Orbits.orbit, Orbits.planet]⟩ false Orbits.days = .ok Orbits.plan ∧
      Orbits.planet.Requires (.property ["Orbit", "Days"] (Orbits.number "Days")) ∧
      Orbits.plan.selection.projection.lookup [] =
        some (.stored (.property ["Orbit", "Days"] (Orbits.number "Days"))) ∧
      Document.lookup [(idElement, .int32 1)] ["Orbit"] = none ∧
      Orbits.plan.readPlace [] [(idElement, .int32 1)] [] = .ok .null ∧
      Orbits.plan.materialize [] [(idElement, .int32 1)] = .ok .null ∧
      Orbits.plan.readTarget [(idElement, .int32 1)] (.entity ["Orbit"] Orbits.orbit false) =
        .error (.missingElement "Planet" "Orbit") ∧
      Orbits.planet.decode [(idElement, .int32 1)] = .error (.missingElement "Planet" "Orbit") :=
  ⟨rfl, Orbits.plan_days, Orbits.requires_days, rfl, rfl, rfl, rfl, rfl, rfl⟩

end DocMapping
