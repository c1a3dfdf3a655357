import DocMapping.Materialization
import DocMapping.Proofs.Bson.Projection
import DocMapping.Proofs.Planning.Projections

/-!
# Shaping Documents

A planned function makes its value of a document by reading the document at the places of its
leaves.  An element that is not found there may be missing for itself or together with an owner;
owners are never missing above an element or a document that is found.
-/

namespace DocMapping

/-! ## Missing owners -/

namespace Document

theorem lacksParent_iff (document : Document) (path : List String) :
    document.lacksParent path = true ↔ ∃ depth, 0 < depth ∧ depth < path.length ∧
      (document.lookup (path.take depth) = none ∨
        document.lookup (path.take depth) = some .null) := by
  unfold lacksParent
  rw [List.any_eq_true]
  constructor
  · rintro ⟨depth, hdepth, hlacks⟩
    rw [List.mem_range'_1] at hdepth
    refine ⟨depth, by omega, by omega, ?_⟩
    split at hlacks
    · next hnone => exact .inl hnone
    · next hnull => exact .inr hnull
    · cases hlacks
  · rintro ⟨depth, hpos, hlength, hlacks⟩
    refine ⟨depth, List.mem_range'_1.2 ⟨by omega, by omega⟩, ?_⟩
    rcases hlacks with hnone | hnull
    · rw [hnone]
    · rw [hnull]

/-- Inside of a document that is found no owner is missing. -/
theorem lacksParent_of_descend {document nested : Document} {path : List String}
    (h : document.descend path = some nested) (name : String) :
    document.lacksParent (path ++ [name]) = false := by
  rw [Bool.eq_false_iff]
  intro hlacks
  obtain ⟨depth, hpos, hlength, hdepth⟩ := (document.lacksParent_iff _).1 hlacks
  rw [List.length_append, List.length_singleton, Nat.lt_succ_iff] at hlength
  have hne : path ≠ [] := List.ne_nil_of_length_pos (by omega)
  have hfound := lookup_of_descend hne h
  rw [List.take_append_of_le_length hlength] at hdepth
  obtain ⟨owner, howner⟩ : ∃ owner, document.lookup (path.take depth) = some (.document owner) := by
    rcases Nat.lt_or_eq_of_le hlength with hlt | rfl
    · rw [← List.take_append_drop depth path] at hfound
      refine lookup_above ?_ ?_ hfound
      · exact List.ne_nil_of_length_pos (by rw [List.length_take]; omega)
      · exact List.ne_nil_of_length_pos (by rw [List.length_drop]; omega)
    · rw [List.take_length]
      exact ⟨nested, hfound⟩
  rw [howner] at hdepth
  rcases hdepth with hnone | hnull
  · cases hnone
  · cases hnull

/-- Above an element that is found no owner is missing. -/
theorem lacksParent_of_lookup {document : Document} {path : List String} {value : Bson}
    (h : document.lookup path = some value) : document.lacksParent path = false := by
  obtain ⟨front, name, rfl⟩ := (List.eq_nil_or_concat' path).resolve_left (ne_nil_of_lookup h)
  rw [lookup_append document front (by simp)] at h
  obtain ⟨nested, hnested, -⟩ := Option.bind_eq_some_iff.1 h
  exact lacksParent_of_descend hnested name

/-- An owner that the whole document lacks is also lacking in a part. -/
theorem IsPart.lacksParent {part whole : Document} (h : IsPart part whole) {path : List String}
    (hwhole : whole.lacksParent path = true) : part.lacksParent path = true := by
  obtain ⟨depth, hpos, hlength, hdepth⟩ := (whole.lacksParent_iff path).1 hwhole
  refine (part.lacksParent_iff path).2 ⟨depth, hpos, hlength, ?_⟩
  rcases hdepth with hnone | hnull
  · exact .inl (h.lookup_none hnone)
  · exact h.lookup_null hnull

end Document

namespace Plan

/-- An owned entity is read from its element. -/
theorem readTarget_entity (p : Plan) (document : Document) {path : List String} (hne : path ≠ [])
    {t : EntityType} {nullable : Bool} :
    p.readTarget document (.entity path t nullable) =
      match document.lookup path with
      | some (.document owned) => (t.decode owned).map Entity.toValue
      | some .null => p.nullOr document path nullable
      | none => p.nullOr document path nullable
      | some other => .error (notOwned t path other) := by
  cases path with
  | nil => exact absurd rfl hne
  | cons name rest => rfl

/-! ## Reading leaf by leaf -/

section

variable (p : Plan) (parameters : Parameters) (document : Document)

/-- Reads a document at the place of a leaf. -/
def readLeaf (place : Place) (_ : Expression) : Outcome Value :=
  p.readPlace parameters document place

theorem shape_leaf (place : Place) {e : Expression}
    (hrecord : ∀ shape fields, e ≠ .record shape fields) (harray : ∀ items, e ≠ .array items) :
    p.shape parameters document (e.shaper place) =
      e.assemble (p.readLeaf parameters document) place := by
  have hshaper : e.shaper place = .place place := by
    rw [Expression.shaper] <;> assumption
  rw [hshaper, Expression.assemble_leaf place hrecord harray, shape]
  rfl

mutual

theorem shape_eq (place : Place) : (e : Expression) →
    p.shape parameters document (e.shaper place) =
      e.assemble (p.readLeaf parameters document) place
  | .record shape fields => by
    rw [Expression.shaper, Plan.shape, Expression.assemble, shapeFields_eq place fields]
  | .array items => by
    rw [Expression.shaper, shape, Expression.assemble, shapeItems_eq place 0 items]
  | .constant _ | .queryParameter _ | .entitySet _ | .parameter _ | .member _ _ | .binary _ _ _
  | .not _ | .call _ _ | .index _ _ | .lambda _ _ =>
    p.shape_leaf parameters document place nofun nofun

theorem shapeFields_eq (place : Place) : (fields : List (String × Expression)) →
    p.shapeFields parameters document (Expression.shaperOfFields place fields) =
      Expression.assembleFields (p.readLeaf parameters document) place fields
  | [] => rfl
  | (name, e) :: rest => by
    rw [Expression.shaperOfFields, shapeFields, Expression.assembleFields,
      shape_eq (place ++ [name]) e, shapeFields_eq place rest]

theorem shapeItems_eq (place : Place) (position : Nat) : (items : List Expression) →
    p.shapeItems parameters document (Expression.shaperOfItems place position items) =
      Expression.assembleItems (p.readLeaf parameters document) place position items
  | [] => rfl
  | e :: rest => by
    rw [Expression.shaperOfItems, shapeItems, Expression.assembleItems,
      shape_eq (place ++ [toString position]) e, shapeItems_eq place (position + 1) rest]

end

end

/-- A plan of a function materializes the leaves of the function, at the places that it binds. -/
theorem materialize_projected {p : Plan} {f : Lambda}
    (h : (⟨f.parameter, p.selection.entity⟩ : Scope).project [] [] f.body =
      .ok (p.shaper, p.selection.projection)) (parameters : Parameters) (document : Document) :
    p.materialize parameters document =
      f.body.assemble (p.readLeaf parameters document) [] ∧
      (⟨f.parameter, p.selection.entity⟩ : Scope).bindLeaves [] (f.body.leaves []) =
        .ok p.selection.projection := by
  rw [Scope.project_eq] at h
  obtain ⟨bound, hbound, hpair⟩ := Outcome.map_eq_ok.1 h
  obtain ⟨hshaper, rfl⟩ := Prod.mk.inj hpair
  unfold materialize
  rw [← hshaper, p.shape_eq]
  exact ⟨rfl, hbound⟩

end Plan

end DocMapping
