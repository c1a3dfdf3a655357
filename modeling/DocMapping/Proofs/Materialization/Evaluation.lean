import DocMapping.Proofs.Codec.Reading
import DocMapping.Proofs.Materialization.Reduction
import DocMapping.Proofs.Planning.Members
import DocMapping.Proofs.Planning.Sources

/-!
# Materialization and Evaluation

A function of an entity can be evaluated at an entity that was read from a document, or planned and
materialized from the document itself.  Member by member the two agree on what they find, but for
owned entities that are null: a store is asked for them more strictly than they are read.  In a
record with several fields of one name the last of them is read for all.
-/

namespace DocMapping

/-! ## Evaluating leaf by leaf -/

namespace Expression

variable {parameters : Parameters} {name : String} {argument : Value}

theorem evaluate_leaf (place : Place) {e : Expression}
    (hrecord : ∀ shape fields, e ≠ .record shape fields) (harray : ∀ items, e ≠ .array items) :
    e.evaluate parameters name argument =
      e.assemble (fun _ leaf ↦ leaf.evaluate parameters name argument) place := by
  rw [assemble_leaf place hrecord harray]

mutual

theorem evaluate_eq (place : Place) : (e : Expression) →
    e.evaluate parameters name argument =
      e.assemble (fun _ leaf ↦ leaf.evaluate parameters name argument) place
  | .record shape fields => by
    rw [evaluate, assemble, evaluateFields_eq place fields]
  | .array items => by
    rw [evaluate, assemble, evaluateItems_eq place 0 items]
  | .constant _ | .queryParameter _ | .entitySet _ | .parameter _ | .member _ _ | .binary _ _ _
  | .not _ | .call _ _ | .index _ _ | .lambda _ _ => evaluate_leaf place nofun nofun

theorem evaluateFields_eq (place : Place) : (fields : List (String × Expression)) →
    evaluateFields parameters name argument fields =
      assembleFields (fun _ leaf ↦ leaf.evaluate parameters name argument) place fields
  | [] => rfl
  | (field, e) :: rest => by
    rw [evaluateFields, assembleFields, evaluate_eq (place ++ [field]) e,
      evaluateFields_eq place rest]

theorem evaluateItems_eq (place : Place) (position : Nat) : (items : List Expression) →
    evaluateList parameters name argument items =
      assembleItems (fun _ leaf ↦ leaf.evaluate parameters name argument) place position items
  | [] => rfl
  | e :: rest => by
    rw [evaluateList, assembleItems, evaluate_eq (place ++ [toString position]) e,
      evaluateItems_eq place (position + 1) rest]

end

/-- The leaf that stands last at a place; there are several where fields share a name. -/
def lastLeaf? (e : Expression) (place : Place) : Option Expression :=
  (e.leaves []).reverse.lookup place

theorem mem_leaves_of_lastLeaf? {e last : Expression} {place : Place}
    (h : e.lastLeaf? place = some last) : (place, last) ∈ e.leaves [] :=
  List.mem_reverse.1 (Association.mem_of_lookup h)

theorem exists_lastLeaf? {e : Expression} {leaf : Place × Expression} (h : leaf ∈ e.leaves []) :
    ∃ last, e.lastLeaf? leaf.1 = some last :=
  Association.exists_lookup_reverse (List.mem_map_of_mem h)

end Expression

/-! ## Members of the entity and of the document -/

/-- A member that is null in the entity may be null in the document as well: an owned entity must be
nullable to be stored as null, and a collection must be there. -/
def Target.IsReadable (document : Document) : Target → Prop
  | .property _ _ => True
  | .entity path _ nullable => nullable = true ∨ document.lookup path ≠ some .null
  | .ownedCollection path _ _ => document.lookup path ≠ none

/-- The entity was read from the document at the path. -/
structure EntityType.IsFound (t : EntityType) (document : Document) (path : List String)
    (nested : Document) (e : Entity) : Prop where
  descend : document.descend path = some nested
  decode : t.decode nested = .ok e
  namesApart : t.NamesApart

namespace EntityType.IsFound

variable {t : EntityType} {document nested : Document} {path : List String} {e : Entity}
  {name : String} (h : t.IsFound document path nested e) (plan : Plan)

include h

theorem lookup_below {rest : List String} (hne : rest ≠ []) :
    document.lookup (path ++ rest) = nested.lookup rest := by
  rw [Document.lookup_append document path hne, h.descend]
  rfl

theorem lookup_element (element : String) :
    document.lookup (path ++ [element]) = nested.get? element :=
  h.lookup_below (List.cons_ne_nil element [])

/-- Below an entity that was read nothing is null for want of an owner. -/
theorem nullOr_element (element : String) (permitted : Bool) :
    plan.nullOr document (path ++ [element]) permitted =
      if permitted then .ok .null else .error (plan.missing (path ++ [element])) := by
  unfold Plan.nullOr
  rw [Document.lacksParent_of_descend h.descend, Bool.or_false]

/-- A property is read as it was for the entity. -/
theorem readTarget_property {p : Property} (hproperty : t.property? name = some p) :
    plan.readTarget document (.property (path ++ t.elementPath p) p) = .ok (e.value name) := by
  have hread := (value_of_decode h.namesApart.distinct h.decode).1 p
    (List.mem_of_find?_eq_some hproperty)
  rw [property?_name hproperty] at hread
  have hne := t.elementPath_ne_nil p
  cases hlookup : nested.lookup (t.elementPath p) with
  | some stored =>
    calc
      plan.readTarget document (.property (path ++ t.elementPath p) p) = p.decode stored := by
        rw [Plan.readTarget, h.lookup_below hne, hlookup]
      _ = t.readProperty nested p := by rw [readProperty, hlookup]
      _ = .ok (e.value name) := hread
  | none =>
    have hnullable : p.nullable = true := by
      by_contra hrequired
      rw [readProperty, hlookup] at hread
      dsimp only at hread
      rw [if_neg hrequired] at hread
      cases hread
    calc
      plan.readTarget document (.property (path ++ t.elementPath p) p) =
          plan.nullOr document (path ++ t.elementPath p) p.nullable := by
        rw [Plan.readTarget, h.lookup_below hne, hlookup]
      _ = .ok .null := by rw [Plan.nullOr, hnullable, Bool.true_or, if_pos rfl]
      _ = t.readProperty nested p := by
        rw [readProperty, hlookup]
        dsimp only
        rw [if_pos hnullable]
      _ = .ok (e.value name) := hread

variable {n : Navigation EntityType} (hnavigation : t.navigation? name = some n)

include hnavigation

theorem readNavigation_eq : t.readNavigation nested n = .ok (e.value name) := by
  have hread := (value_of_decode h.namesApart.distinct h.decode).2 n
    (List.mem_of_find?_eq_some hnavigation)
  rwa [navigation?_name hnavigation] at hread

/-- What was found for a navigation is an owned entity or null; it is null also where the element is
missing, which must then be permitted. -/
theorem single_cases (hsingle : n.container = none) :
    (nested.get? n.element = none ∧ n.nullable = true ∧ e.value name = .null) ∨
      (nested.get? n.element = some .null ∧ e.value name = .null) ∨
      ∃ owned inner, nested.get? n.element = some (.document owned) ∧
        n.target.decode owned = .ok inner ∧ e.value name = inner.toValue := by
  have hread := h.readNavigation_eq hnavigation
  unfold readNavigation at hread
  split at hread
  · next stored hstored =>
    rcases decodeNavigation_single hsingle hread with ⟨rfl, hnull⟩ |
      ⟨owned, inner, rfl, hinner, heq⟩
    · exact .inr (.inl ⟨hstored, hnull⟩)
    · exact .inr (.inr ⟨owned, inner, hstored, hinner, heq⟩)
  · next hnone =>
    split at hread
    · next hnullable => exact .inl ⟨hnone, hnullable, (Except.ok.inj hread).symm⟩
    · cases hread

/-- The owned entity was read from the document below. -/
theorem single (hsingle : n.container = none) (hvalue : e.value name ≠ .null) :
    ∃ owned inner, n.target.IsFound document (path ++ [n.element]) owned inner ∧
      e.value name = inner.toValue := by
  rcases h.single_cases hnavigation hsingle with ⟨-, -, hnull⟩ | ⟨-, hnull⟩ |
    ⟨owned, inner, hget, hinner, heq⟩
  · exact absurd hnull hvalue
  · exact absurd hnull hvalue
  · refine ⟨owned, inner, ⟨?_, hinner, ?_⟩, heq⟩
    · rw [Document.descend_concat, h.descend]
      exact Document.nested?_of_get? hget
    · exact h.namesApart.targets n (List.mem_of_find?_eq_some hnavigation)

/-- An owned entity is read as it was for the entity, unless it is null and must not be. -/
theorem readTarget_single (hsingle : n.container = none) (found : Value) :
    plan.readTarget document (.entity (path ++ [n.element]) n.target n.nullable) = .ok found ↔
      (n.nullable = true ∨ document.lookup (path ++ [n.element]) ≠ some .null) ∧
        e.value name = found := by
  rw [plan.readTarget_entity document (by simp), h.nullOr_element, h.lookup_element]
  rcases h.single_cases hnavigation hsingle with ⟨hget, hnullable, hnull⟩ | ⟨hget, hnull⟩ |
    ⟨owned, inner, hget, hinner, heq⟩
  · rw [hget, hnull, hnullable, if_pos rfl]
    simp
  · rw [hget, hnull]
    cases n.nullable <;> simp
  · rw [hget, heq]
    dsimp only
    rw [hinner]
    simp [Except.map]

/-- A collection is read as it was for the entity, unless its element is missing. -/
theorem readTarget_collection {container : Container} (hcollection : n.container = some container)
    (found : Value) :
    plan.readTarget document (.ownedCollection (path ++ [n.element]) n.target container) =
        .ok found ↔
      document.lookup (path ++ [n.element]) ≠ none ∧ e.value name = found := by
  have hread := h.readNavigation_eq hnavigation
  unfold Plan.readTarget
  dsimp only
  rw [h.nullOr_element, h.lookup_element]
  unfold readNavigation at hread
  split at hread
  · next stored hstored =>
    rw [hstored]
    rcases decodeNavigation_collection hcollection hread with ⟨rfl, hnull⟩ |
      ⟨items, values, rfl, hitems, heq⟩
    · rw [hnull]
      simp
    · have hvalues : items.mapM (Plan.ownedItem n.target (path ++ [n.element])) = .ok values := by
        refine Outcome.mapM_eq_ok.2 (hitems.imp ?_)
        rintro item value ⟨owned, inner, rfl, hinner, rfl⟩
        unfold Plan.ownedItem
        dsimp only
        rw [hinner]
        rfl
      dsimp only
      rw [hvalues, heq]
      simp [Except.map]
  · next hnone =>
    rw [hnone]
    simp

end EntityType.IsFound

/-! ## Leaves of the entity and of the document -/

section

variable {s : Scope} {document : Document} {e : Entity} {parameters : Parameters}

/-- A member has a value only in a value that is not null. -/
theorem Expression.evaluate_member_ok {target : Expression} {name argument : String}
    {root value : Value}
    (h : (Expression.member target name).evaluate parameters argument root = .ok value) :
    ∃ owner, target.evaluate parameters argument root = .ok owner ∧ owner ≠ .null ∧
      memberOf target name owner = .ok value := by
  rw [Expression.evaluate] at h
  obtain ⟨owner, howner, hmember⟩ := Outcome.bind_eq_ok.1 h
  refine ⟨owner, howner, ?_, hmember⟩
  rintro rfl
  cases hmember

/-- An expression that is planned as an owned entity evaluates to the one that was read from there,
or to null. -/
theorem Scope.Resolves.found (hnames : s.entity.NamesApart)
    (hdecode : s.entity.decode document = .ok e) {leaf : Expression} {path : List String}
    {owner : EntityType} {nullable : Bool} (h : s.Resolves leaf (.entity path owner nullable))
    {value : Value} (hvalue : leaf.evaluate parameters s.parameter e.toValue = .ok value)
    (hne : value ≠ .null) :
    ∃ nested inner, owner.IsFound document path nested inner ∧ value = inner.toValue := by
  generalize hplanned : Target.entity path owner nullable = target at h
  induction h generalizing path owner nullable value with
  | parameter =>
    cases hplanned
    rw [Expression.evaluate, if_pos rfl] at hvalue
    exact ⟨document, e, ⟨rfl, hdecode, hnames⟩, (Except.ok.inj hvalue).symm⟩
  | member _ htarget ih =>
    subst hplanned
    -- Null has no members, so the owner was found as well.
    obtain ⟨holder, hholder, hholds, hmember⟩ := Expression.evaluate_member_ok hvalue
    obtain ⟨nested, inner, hfound, rfl⟩ := ih hholder hholds rfl
    obtain ⟨p, -, hkind⟩ | ⟨n, hn, ⟨hsingle, hkind⟩ | ⟨container, -, hkind⟩⟩ :=
      EntityType.target_cases htarget
    · cases hkind
    · cases hkind
      obtain rfl := Except.ok.inj hmember
      exact hfound.single hn hsingle hne
    · cases hkind

/-- What a leaf is planned as reads from the document what the leaf evaluates to, if it can be
read. -/
theorem Scope.readTarget_iff (hnames : s.entity.NamesApart)
    (hdecode : s.entity.decode document = .ok e) {leaf : Expression} {target : Target}
    (hresolve : s.resolve leaf = .ok (some target)) {value : Value}
    (hvalue : leaf.evaluate parameters s.parameter e.toValue = .ok value) (p : Plan)
    (found : Value) :
    p.readTarget document target = .ok found ↔ target.IsReadable document ∧ value = found := by
  cases resolves_of_resolve leaf hresolve with
  | parameter =>
    rw [Expression.evaluate, if_pos rfl] at hvalue
    cases hvalue
    have hroot : p.readTarget document (.entity [] s.entity false) =
        (s.entity.decode document).map Entity.toValue := rfl
    have hreadable : (Target.entity [] s.entity false).IsReadable document :=
      .inr (by simp [Document.lookup])
    rw [hroot, hdecode, and_iff_right hreadable]
    exact ⟨Except.ok.inj, congrArg Except.ok⟩
  | member howner htarget =>
    obtain ⟨holder, hholder, hholds, hmember⟩ := Expression.evaluate_member_ok hvalue
    obtain ⟨nested, inner, hfound, rfl⟩ := howner.found hnames hdecode hholder hholds
    obtain rfl := Except.ok.inj hmember
    obtain ⟨property, hproperty, rfl⟩ | ⟨n, hn, ⟨hsingle, rfl⟩ | ⟨container, hcollection, rfl⟩⟩ :=
      EntityType.target_cases htarget
    · rw [hfound.readTarget_property p hproperty]
      exact ⟨fun heq ↦ ⟨trivial, Except.ok.inj heq⟩, fun h ↦ congrArg Except.ok h.2⟩
    · exact hfound.readTarget_single p hn hsingle found
    · exact hfound.readTarget_collection p hn hcollection found

/-- What is bound for a leaf gives the value that the leaf evaluates to, if it can be read. -/
theorem Scope.readPlace_iff (hnames : s.entity.NamesApart)
    (hdecode : s.entity.decode document = .ok e) {leaf : Expression} {binding : ProjectionBinding}
    (hbinding : s.binding leaf = .ok binding) {value : Value}
    (hvalue : leaf.evaluate parameters s.parameter e.toValue = .ok value) {p : Plan} {place : Place}
    (hlookup : p.selection.projection.lookup place = some binding) (found : Value) :
    p.readPlace parameters document place = .ok found ↔
      (∀ target, binding = .stored target → target.IsReadable document) ∧ value = found := by
  unfold Plan.readPlace
  rw [hlookup]
  unfold Scope.binding at hbinding
  split at hbinding
  · cases hbinding
    cases hvalue
    exact ⟨fun heq ↦ ⟨by rintro _ ⟨⟩, Except.ok.inj heq⟩, fun h ↦ congrArg Except.ok h.2⟩
  · cases hbinding
    rw [Expression.evaluate] at hvalue
    dsimp only
    rw [hvalue]
    exact ⟨fun heq ↦ ⟨by rintro _ ⟨⟩, Except.ok.inj heq⟩, fun h ↦ congrArg Except.ok h.2⟩
  · obtain ⟨planned, hplanned, hbinding⟩ := Outcome.bind_eq_ok.1 hbinding
    split at hbinding
    · next target =>
      cases hbinding
      have honly : (∀ other, ProjectionBinding.stored target = .stored other →
          other.IsReadable document) ↔ target.IsReadable document :=
        ⟨fun h ↦ h target rfl, fun h other heq ↦ ProjectionBinding.stored.inj heq ▸ h⟩
      rw [honly]
      exact Scope.readTarget_iff hnames hdecode hplanned hvalue p found
    · cases hbinding

end

/-- A planned function of an entity gives the value that it evaluates to exactly if everything it
asks for can be read, and leaves at one place have one value. -/
theorem Plan.materialize_evaluate_iff {p : Plan} {f : Lambda}
    (hproject : (⟨f.parameter, p.selection.entity⟩ : Scope).project [] [] f.body =
      .ok (p.shaper, p.selection.projection))
    (hnames : p.selection.entity.NamesApart) {parameters : Parameters} {document : Document}
    {e : Entity} (hdecode : p.selection.entity.decode document = .ok e) {value : Value}
    (hvalue : f.evaluate parameters e.toValue = .ok value) :
    p.materialize parameters document = .ok value ↔
      (∀ place target, p.selection.projection.lookup place = some (.stored target) →
        target.IsReadable document) ∧
      ∀ leaf ∈ f.body.leaves [], ∀ last, f.body.lastLeaf? leaf.1 = some last →
        last.evaluate parameters f.parameter e.toValue =
          leaf.2.evaluate parameters f.parameter e.toValue := by
  obtain ⟨hmaterialize, hbound⟩ := materialize_projected hproject parameters document
  unfold Lambda.evaluate at hvalue
  rw [f.body.evaluate_eq []] at hvalue
  have hleaves := Expression.exists_of_assemble [] f.body hvalue
  -- The last leaf at a place is the one that is read there.
  have hread {place : Place} {last : Expression} (hlast : f.body.lastLeaf? place = some last) :
      ∃ binding result, p.selection.projection.lookup place = some binding ∧
        last.evaluate parameters f.parameter e.toValue = .ok result ∧
        ∀ found, p.readPlace parameters document place = .ok found ↔
          (∀ target, binding = .stored target → target.IsReadable document) ∧ result = found := by
    obtain ⟨binding, hbinding, hlookup⟩ := Scope.lookup_bindLeaves hbound hlast
    obtain ⟨result, hresult⟩ := hleaves _ (Expression.mem_leaves_of_lastLeaf? hlast)
    exact ⟨binding, result, hlookup, hresult,
      Scope.readPlace_iff hnames hdecode hbinding hresult hlookup⟩
  rw [hmaterialize]
  constructor
  · intro hshaped
    have hagree := Expression.agree_of_assemble [] f.body hshaped hvalue
    constructor
    · intro place target hlookup
      obtain ⟨leaf, hleaf, rfl⟩ := Scope.mem_leaves_of_lookup hbound hlookup
      obtain ⟨last, hlast⟩ := Expression.exists_lastLeaf? hleaf
      obtain ⟨binding, result, hbinding, -, hiff⟩ := hread hlast
      obtain ⟨found, hfound, -⟩ := hagree leaf hleaf
      exact ((hiff found).1 hfound).1 target (Option.some.inj (hbinding.symm.trans hlookup))
    · intro leaf hleaf last hlast
      obtain ⟨binding, result, -, hresult, hiff⟩ := hread hlast
      obtain ⟨found, hfound, hevaluated⟩ := hagree leaf hleaf
      obtain rfl := ((hiff found).1 hfound).2
      exact hresult.trans hevaluated.symm
  · rintro ⟨hreadable, hsame⟩
    rw [← hvalue]
    apply Expression.assemble_congr
    intro leaf hleaf
    obtain ⟨last, hlast⟩ := Expression.exists_lastLeaf? hleaf
    obtain ⟨binding, result, hbinding, hresult, hiff⟩ := hread hlast
    have hstored : ∀ target, binding = .stored target → target.IsReadable document := by
      intro target htarget
      apply hreadable leaf.1
      rw [hbinding, htarget]
    calc
      p.readLeaf parameters document leaf.1 leaf.2 = .ok result := (hiff result).2 ⟨hstored, rfl⟩
      _ = last.evaluate parameters f.parameter e.toValue := hresult.symm
      _ = leaf.2.evaluate parameters f.parameter e.toValue := hsame leaf hleaf last hlast

namespace Orbits

theorem namesApart_planet : planet.NamesApart := by
  have horbit : orbit.NamesApart := .mk (by decide) (by simp [orbit])
  exact .mk (by decide) (List.forall_mem_singleton.2 horbit)

/-- The number of a planet, and the days of its orbit with their unit. -/
def years : Lambda :=
  ⟨"p", .record .anonymous [("Planet", .member (.parameter "p") "Id"),
    ("Year", .array [.member (.member (.parameter "p") "Orbit") "Days", .queryParameter "unit"])]⟩

def yearsPlan : Plan :=
  ⟨⟨"Planet", planet, none, [], none, none,
    [(["Planet"], .stored (.property [idElement] id)),
      (["Year", "0"], .stored (.property ["Orbit", "Days"] (number "Days"))),
      (["Year", "1"], .parameter "unit")]⟩,
    .record .anonymous [("Planet", .place ["Planet"]),
      ("Year", .array [.place ["Year", "0"], .place ["Year", "1"]])], .sequence⟩

/-- The number of a planet and the days of its orbit, in a tuple whose fields have no names. -/
def pair : Lambda :=
  ⟨"p", .record .tuple [("", .member (.parameter "p") "Id"),
    ("", .member (.member (.parameter "p") "Orbit") "Days")]⟩

def pairPlan : Plan :=
  ⟨⟨"Planet", planet, none, [], none, none,
    [([""], .stored (.property ["Orbit", "Days"] (number "Days")))]⟩,
    .record .tuple [("", .place [""]), ("", .place [""])], .sequence⟩

/-- Mars as it is stored and as it is read. -/
def stored : Document := circled [("Days", .int32 687)]

def mars : Entity :=
  ⟨"Planet", [("Id", .int32 1), ("Orbit", .entity "Orbit" [("Days", .int32 687)])]⟩

end Orbits

theorem Plan.materialize_evaluate_years :
    Model.plan ⟨[Orbits.orbit, Orbits.planet]⟩ false
        (.call .select [.entitySet "Planet", Orbits.years.toExpression]) = .ok Orbits.yearsPlan ∧
      Orbits.yearsPlan.materialize [("unit", .string "d")] Orbits.stored =
        .ok (.record .anonymous [("Planet", .int32 1),
          ("Year", .collection .array [.int32 687, .string "d"])]) := by
  have hplan : Model.plan ⟨[Orbits.orbit, Orbits.planet]⟩ false
      (.call .select [.entitySet "Planet", Orbits.years.toExpression]) = .ok Orbits.yearsPlan := rfl
  have hproject := (Model.plan_select hplan).resolve_right nofun
  have hdecode : Orbits.planet.decode Orbits.stored = .ok Orbits.mars := rfl
  refine ⟨hplan, (Plan.materialize_evaluate_iff hproject Orbits.namesApart_planet hdecode rfl).2
    ⟨fun place target hlookup ↦ ?_, ?_⟩⟩
  · have hmem := Association.mem_of_lookup hlookup
    simp only [Orbits.yearsPlan, List.mem_cons] at hmem
    obtain h | h | h | h := hmem <;> cases h <;> trivial
  · refine List.forall_mem_cons.2 ⟨?_, List.forall_mem_cons.2 ⟨?_, List.forall_mem_singleton.2 ?_⟩⟩
    all_goals
      rintro last ⟨⟩
      rfl

/-- Both fields of the pair are read from one place, at which the days are bound. -/
theorem Model.plan_confuses_fields :
    Orbits.planets.build = .ok ⟨[Orbits.orbit, Orbits.planet]⟩ ∧
      Model.plan ⟨[Orbits.orbit, Orbits.planet]⟩ false
        (.call .select [.entitySet "Planet", Orbits.pair.toExpression]) = .ok Orbits.pairPlan ∧
      Orbits.planet.decode Orbits.stored = .ok Orbits.mars ∧
      Orbits.pair.evaluate [] Orbits.mars.toValue =
        .ok (.record .tuple [("", .int32 1), ("", .int32 687)]) ∧
      Orbits.pairPlan.materialize [] Orbits.stored =
        .ok (.record .tuple [("", .int32 687), ("", .int32 687)]) :=
  ⟨rfl, rfl, rfl, rfl, rfl⟩

end DocMapping
