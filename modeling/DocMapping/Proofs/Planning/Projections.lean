import DocMapping.Planning.Projection
import DocMapping.Proofs.Association
import DocMapping.Proofs.Outcome
import Mathlib.Data.List.Induction

/-!
# The Leaves of a Projection

A function of an entity is planned leaf by leaf.  Which leaves it has, at which places they stand
and how a value is put together from theirs is seen from the function alone; only what a leaf is
bound to depends on the entity.
-/

namespace DocMapping

/-! ## Leaves and their places -/

namespace Expression

mutual

/-- The expressions inside of records and arrays, with their places. -/
def leaves (place : Place) : Expression → List (Place × Expression)
  | .record _ fields => leavesOfFields place fields
  | .array items => leavesOfItems place 0 items
  | other => [(place, other)]

def leavesOfFields (place : Place) : List (String × Expression) → List (Place × Expression)
  | [] => []
  | (name, e) :: rest => leaves (place ++ [name]) e ++ leavesOfFields place rest

def leavesOfItems (place : Place) (position : Nat) : List Expression → List (Place × Expression)
  | [] => []
  | e :: rest =>
    leaves (place ++ [toString position]) e ++ leavesOfItems place (position + 1) rest

end

mutual

/-- The shaper that puts a value together from those at its leaves. -/
def shaper (place : Place) : Expression → Shaper
  | .record shape fields => .record shape (shaperOfFields place fields)
  | .array items => .array (shaperOfItems place 0 items)
  | _ => .place place

def shaperOfFields (place : Place) : List (String × Expression) → List (String × Shaper)
  | [] => []
  | (name, e) :: rest => (name, shaper (place ++ [name]) e) :: shaperOfFields place rest

def shaperOfItems (place : Place) (position : Nat) : List Expression → List Shaper
  | [] => []
  | e :: rest =>
    shaper (place ++ [toString position]) e :: shaperOfItems place (position + 1) rest

end

end Expression

/-! ## Values from the values of leaves -/

namespace Expression

variable {read other : Place → Expression → Outcome Value}

mutual

/-- Puts a value together from those at its leaves, from left to right up to the first failure. -/
def assemble (read : Place → Expression → Outcome Value) (place : Place) :
    Expression → Outcome Value
  | .record shape fields => (assembleFields read place fields).map (Value.record shape)
  | .array items => (assembleItems read place 0 items).map (Value.collection .array)
  | leaf => read place leaf

def assembleFields (read : Place → Expression → Outcome Value) (place : Place) :
    List (String × Expression) → Outcome (List (String × Value))
  | [] => .ok []
  | (name, e) :: rest => do
    let value ← assemble read (place ++ [name]) e
    return (name, value) :: (← assembleFields read place rest)

def assembleItems (read : Place → Expression → Outcome Value) (place : Place) (position : Nat) :
    List Expression → Outcome (List Value)
  | [] => .ok []
  | e :: rest => do
    let value ← assemble read (place ++ [toString position]) e
    return value :: (← assembleItems read place (position + 1) rest)

end

/-- An expression that is not taken apart is a leaf. -/
theorem leaves_leaf (place : Place) {e : Expression}
    (hrecord : ∀ shape fields, e ≠ .record shape fields) (harray : ∀ items, e ≠ .array items) :
    e.leaves place = [(place, e)] := by
  rw [leaves] <;> assumption

theorem assemble_leaf (place : Place) {e : Expression}
    (hrecord : ∀ shape fields, e ≠ .record shape fields) (harray : ∀ items, e ≠ .array items) :
    e.assemble read place = read place e := by
  rw [assemble] <;> assumption

theorem assemble_congr_leaf (place : Place) {e : Expression}
    (hrecord : ∀ shape fields, e ≠ .record shape fields) (harray : ∀ items, e ≠ .array items)
    (h : ∀ leaf ∈ e.leaves place, read leaf.1 leaf.2 = other leaf.1 leaf.2) :
    e.assemble read place = e.assemble other place := by
  rw [leaves_leaf place hrecord harray] at h
  rw [assemble_leaf place hrecord harray, assemble_leaf place hrecord harray]
  exact h _ List.mem_cons_self

mutual

/-- Only the values at the leaves matter. -/
theorem assemble_congr (place : Place) : (e : Expression) →
    (∀ leaf ∈ e.leaves place, read leaf.1 leaf.2 = other leaf.1 leaf.2) →
    e.assemble read place = e.assemble other place
  | .record shape fields, h => by
    rw [leaves] at h
    rw [assemble, assemble, assembleFields_congr place fields h]
  | .array items, h => by
    rw [leaves] at h
    rw [assemble, assemble, assembleItems_congr place 0 items h]
  | .constant _, h | .queryParameter _, h | .entitySet _, h | .parameter _, h | .member _ _, h
  | .binary _ _ _, h | .not _, h | .call _ _, h | .index _ _, h | .lambda _ _, h =>
    assemble_congr_leaf place nofun nofun h

theorem assembleFields_congr (place : Place) : (fields : List (String × Expression)) →
    (∀ leaf ∈ leavesOfFields place fields, read leaf.1 leaf.2 = other leaf.1 leaf.2) →
    assembleFields read place fields = assembleFields other place fields
  | [], _ => rfl
  | (name, e) :: rest, h => by
    rw [leavesOfFields, List.forall_mem_append] at h
    rw [assembleFields, assembleFields, assemble_congr (place ++ [name]) e h.1,
      assembleFields_congr place rest h.2]

theorem assembleItems_congr (place : Place) (position : Nat) : (items : List Expression) →
    (∀ leaf ∈ leavesOfItems place position items, read leaf.1 leaf.2 = other leaf.1 leaf.2) →
    assembleItems read place position items = assembleItems other place position items
  | [], _ => rfl
  | e :: rest, h => by
    rw [leavesOfItems, List.forall_mem_append] at h
    rw [assembleItems, assembleItems, assemble_congr (place ++ [toString position]) e h.1,
      assembleItems_congr place (position + 1) rest h.2]

end

theorem agree_of_assemble_leaf (place : Place) {e : Expression}
    (hrecord : ∀ shape fields, e ≠ .record shape fields) (harray : ∀ items, e ≠ .array items)
    {value : Value} (hread : e.assemble read place = .ok value)
    (hother : e.assemble other place = .ok value) :
    ∀ leaf ∈ e.leaves place,
      ∃ found, read leaf.1 leaf.2 = .ok found ∧ other leaf.1 leaf.2 = .ok found := by
  rw [leaves_leaf place hrecord harray]
  rw [assemble_leaf place hrecord harray] at hread hother
  exact List.forall_mem_singleton.2 ⟨value, hread, hother⟩

mutual

/-- A value that is put together in two ways has the same values at all of its leaves. -/
theorem agree_of_assemble (place : Place) : (e : Expression) → {value : Value} →
    e.assemble read place = .ok value → e.assemble other place = .ok value →
    ∀ leaf ∈ e.leaves place,
      ∃ found, read leaf.1 leaf.2 = .ok found ∧ other leaf.1 leaf.2 = .ok found
  | .record shape fields, value, hread, hother => by
    rw [assemble] at hread hother
    obtain ⟨values, hvalues, rfl⟩ := Outcome.map_eq_ok.1 hread
    obtain ⟨others, hothers, hsame⟩ := Outcome.map_eq_ok.1 hother
    cases hsame
    rw [leaves]
    exact agree_of_assembleFields place fields hvalues hothers
  | .array items, value, hread, hother => by
    rw [assemble] at hread hother
    obtain ⟨values, hvalues, rfl⟩ := Outcome.map_eq_ok.1 hread
    obtain ⟨others, hothers, hsame⟩ := Outcome.map_eq_ok.1 hother
    cases hsame
    rw [leaves]
    exact agree_of_assembleItems place 0 items hvalues hothers
  | .constant _, _, hread, hother | .queryParameter _, _, hread, hother
  | .entitySet _, _, hread, hother | .parameter _, _, hread, hother | .member _ _, _, hread, hother
  | .binary _ _ _, _, hread, hother | .not _, _, hread, hother | .call _ _, _, hread, hother
  | .index _ _, _, hread, hother | .lambda _ _, _, hread, hother =>
    agree_of_assemble_leaf place nofun nofun hread hother

theorem agree_of_assembleFields (place : Place) : (fields : List (String × Expression)) →
    {values : List (String × Value)} → assembleFields read place fields = .ok values →
    assembleFields other place fields = .ok values →
    ∀ leaf ∈ leavesOfFields place fields,
      ∃ found, read leaf.1 leaf.2 = .ok found ∧ other leaf.1 leaf.2 = .ok found
  | [], _, _, _ => fun _ hleaf ↦ (by cases hleaf)
  | (name, e) :: rest, values, hread, hother => by
    rw [assembleFields] at hread hother
    obtain ⟨value, hvalue, hread⟩ := Outcome.bind_eq_ok.1 hread
    obtain ⟨later, hlater, hvalues⟩ := Outcome.bind_eq_ok.1 hread
    obtain ⟨_, hvalue', hother⟩ := Outcome.bind_eq_ok.1 hother
    obtain ⟨_, hlater', hvalues'⟩ := Outcome.bind_eq_ok.1 hother
    cases hvalues
    cases hvalues'
    rw [leavesOfFields, List.forall_mem_append]
    exact ⟨agree_of_assemble (place ++ [name]) e hvalue hvalue',
      agree_of_assembleFields place rest hlater hlater'⟩

theorem agree_of_assembleItems (place : Place) (position : Nat) : (items : List Expression) →
    {values : List Value} → assembleItems read place position items = .ok values →
    assembleItems other place position items = .ok values →
    ∀ leaf ∈ leavesOfItems place position items,
      ∃ found, read leaf.1 leaf.2 = .ok found ∧ other leaf.1 leaf.2 = .ok found
  | [], _, _, _ => fun _ hleaf ↦ (by cases hleaf)
  | e :: rest, values, hread, hother => by
    rw [assembleItems] at hread hother
    obtain ⟨value, hvalue, hread⟩ := Outcome.bind_eq_ok.1 hread
    obtain ⟨later, hlater, hvalues⟩ := Outcome.bind_eq_ok.1 hread
    obtain ⟨_, hvalue', hother⟩ := Outcome.bind_eq_ok.1 hother
    obtain ⟨_, hlater', hvalues'⟩ := Outcome.bind_eq_ok.1 hother
    cases hvalues
    cases hvalues'
    rw [leavesOfItems, List.forall_mem_append]
    exact ⟨agree_of_assemble (place ++ [toString position]) e hvalue hvalue',
      agree_of_assembleItems place (position + 1) rest hlater hlater'⟩

end

/-- A value that is put together has values at all of its leaves. -/
theorem exists_of_assemble (place : Place) (e : Expression) {value : Value}
    (h : e.assemble read place = .ok value) :
    ∀ leaf ∈ e.leaves place, ∃ found, read leaf.1 leaf.2 = .ok found := fun leaf hleaf ↦
  (agree_of_assemble place e h h leaf hleaf).imp fun _ hfound ↦ hfound.1

end Expression

/-! ## Planning leaf by leaf -/

namespace Scope

/-- What a leaf is bound to. -/
def binding (s : Scope) : Expression → Planned ProjectionBinding
  | .constant value => .ok (.constant value)
  | .queryParameter name => .ok (.parameter name)
  | other => do
    match ← s.resolve other with
    | some target => return .stored target
    | none => throw (.unsupportedProjection other.text)

/-- Binds leaves at their places one after the other. -/
def bindLeaves (s : Scope) (bindings : Projection) (leaves : List (Place × Expression)) :
    Planned Projection :=
  leaves.foldlM
    (fun bindings leaf ↦ (s.binding leaf.2).map fun binding ↦ bindings.insert leaf.1 binding)
    bindings

theorem bindLeaves_append (s : Scope) (bindings : Projection)
    (leaves others : List (Place × Expression)) :
    s.bindLeaves bindings (leaves ++ others) =
      (s.bindLeaves bindings leaves).bind fun bound ↦ s.bindLeaves bound others := by
  unfold bindLeaves
  rw [List.foldlM_append]
  rfl

/-- An expression that is not taken apart is bound as a whole. -/
theorem project_leaf (s : Scope) (place : Place) (bindings : Projection) {e : Expression}
    (hrecord : ∀ shape fields, e ≠ .record shape fields) (harray : ∀ items, e ≠ .array items)
    (hconstant : ∀ value, e ≠ .constant value) (hparameter : ∀ name, e ≠ .queryParameter name) :
    s.project place bindings e =
      (s.bindLeaves bindings (e.leaves place)).map fun bound ↦ (e.shaper place, bound) := by
  have hleaves := Expression.leaves_leaf place hrecord harray
  have hshaper : e.shaper place = .place place := by
    rw [Expression.shaper] <;> assumption
  have hbound : s.bindLeaves bindings [(place, e)] =
      (s.binding e).map fun binding ↦ bindings.insert place binding := by
    change ((s.binding e).map _).bind pure = _
    cases s.binding e <;> rfl
  rw [hleaves, hshaper, hbound, binding]
  · rw [project]
    · cases s.resolve e with
      | error fault => rfl
      | ok target => cases target <;> rfl
    all_goals assumption
  all_goals assumption

mutual

/-- A function is planned by binding its leaves. -/
theorem project_eq (s : Scope) (place : Place) (bindings : Projection) : (e : Expression) →
    s.project place bindings e =
      (s.bindLeaves bindings (e.leaves place)).map fun bound ↦ (e.shaper place, bound)
  | .record shape fields => by
    rw [project, projectFields_eq s place bindings fields, Expression.leaves, Expression.shaper]
    cases s.bindLeaves bindings (Expression.leavesOfFields place fields) <;> rfl
  | .array items => by
    rw [project, projectItems_eq s place bindings 0 items, Expression.leaves, Expression.shaper]
    cases s.bindLeaves bindings (Expression.leavesOfItems place 0 items) <;> rfl
  | .constant value => by rw [project]; rfl
  | .queryParameter name => by rw [project]; rfl
  | .entitySet entity => s.project_leaf place bindings nofun nofun nofun nofun
  | .parameter name => s.project_leaf place bindings nofun nofun nofun nofun
  | .member target name => s.project_leaf place bindings nofun nofun nofun nofun
  | .binary operator left right => s.project_leaf place bindings nofun nofun nofun nofun
  | .not operand => s.project_leaf place bindings nofun nofun nofun nofun
  | .call method arguments => s.project_leaf place bindings nofun nofun nofun nofun
  | .index target position => s.project_leaf place bindings nofun nofun nofun nofun
  | .lambda parameter body => s.project_leaf place bindings nofun nofun nofun nofun

theorem projectFields_eq (s : Scope) (place : Place) (bindings : Projection) :
    (fields : List (String × Expression)) →
    s.projectFields place bindings fields =
      (s.bindLeaves bindings (Expression.leavesOfFields place fields)).map fun bound ↦
        (Expression.shaperOfFields place fields, bound)
  | [] => by rw [projectFields]; rfl
  | (name, e) :: rest => by
    rw [projectFields, project_eq s (place ++ [name]) bindings e, Expression.leavesOfFields,
      bindLeaves_append, Expression.shaperOfFields]
    cases s.bindLeaves bindings (e.leaves (place ++ [name])) with
    | error fault => rfl
    | ok bound =>
      change (s.projectFields place bound rest).bind _ = _
      rw [projectFields_eq s place bound rest]
      change _ = (s.bindLeaves bound (Expression.leavesOfFields place rest)).map _
      cases s.bindLeaves bound (Expression.leavesOfFields place rest) <;> rfl

theorem projectItems_eq (s : Scope) (place : Place) (bindings : Projection) (position : Nat) :
    (items : List Expression) →
    s.projectItems place bindings position items =
      (s.bindLeaves bindings (Expression.leavesOfItems place position items)).map fun bound ↦
        (Expression.shaperOfItems place position items, bound)
  | [] => by rw [projectItems]; rfl
  | e :: rest => by
    rw [projectItems, project_eq s (place ++ [toString position]) bindings e,
      Expression.leavesOfItems, bindLeaves_append, Expression.shaperOfItems]
    cases s.bindLeaves bindings (e.leaves (place ++ [toString position])) with
    | error fault => rfl
    | ok bound =>
      change (s.projectItems place bound (position + 1) rest).bind _ = _
      rw [projectItems_eq s place bound (position + 1) rest]
      change _ = (s.bindLeaves bound (Expression.leavesOfItems place (position + 1) rest)).map _
      cases s.bindLeaves bound (Expression.leavesOfItems place (position + 1) rest) <;> rfl

end

end Scope

/-! ## Bound places -/

theorem Place.order_eq_iff (place other : Place) : place.order other = .eq ↔ place = other := by
  induction place generalizing other with
  | nil => cases other <;> simp [order]
  | cons name rest ih =>
    cases other with
    | nil => simp [order]
    | cons first tail =>
      rw [order, Ordering.then_eq_eq, Std.compare_eq_iff_eq, ih, List.cons.injEq]

namespace Projection

theorem lookup_insert (place : Place) (binding : ProjectionBinding) (projection : Projection)
    (other : Place) :
    (projection.insert place binding).lookup other =
      if other = place then some binding else projection.lookup other := by
  induction projection with
  | nil => exact Association.lookup_cons place other binding []
  | cons entry rest ih =>
    obtain ⟨first, old⟩ := entry
    unfold insert
    cases horder : place.order first with
    | lt => exact Association.lookup_cons place other binding _
    | eq =>
      obtain rfl := (Place.order_eq_iff place first).1 horder
      dsimp only
      rw [Association.lookup_cons, Association.lookup_cons]
      split <;> rfl
    | gt =>
      have hne : first ≠ place := by
        rintro rfl
        rw [(Place.order_eq_iff first first).2 rfl] at horder
        cases horder
      dsimp only
      rw [Association.lookup_cons, ih, Association.lookup_cons]
      by_cases hfirst : other = first
      · rw [if_pos hfirst, if_pos hfirst, if_neg (hfirst ▸ hne)]
      · rw [if_neg hfirst, if_neg hfirst]

theorem mem_insert {place : Place} {binding : ProjectionBinding} {projection : Projection}
    {entry : Place × ProjectionBinding} (h : entry ∈ projection.insert place binding) :
    entry = (place, binding) ∨ entry ∈ projection := by
  induction projection with
  | nil => exact .inl (List.mem_singleton.1 h)
  | cons first rest ih =>
    unfold insert at h
    split at h
    · exact List.mem_cons.1 h
    · exact (List.mem_cons.1 h).imp_right (List.mem_cons_of_mem _)
    · rcases List.mem_cons.1 h with rfl | hrest
      · exact .inr List.mem_cons_self
      · exact (ih hrest).imp_right (List.mem_cons_of_mem _)

end Projection

namespace Scope

variable {s : Scope} {bindings bound : Projection} {leaves : List (Place × Expression)}

/-- The steps of binding leaves. -/
theorem bindLeaves_cons {leaf : Place × Expression}
    (h : s.bindLeaves bindings (leaf :: leaves) = .ok bound) :
    ∃ binding, s.binding leaf.2 = .ok binding ∧
      s.bindLeaves (bindings.insert leaf.1 binding) leaves = .ok bound := by
  obtain ⟨inserted, hinserted, hrest⟩ := Outcome.bind_eq_ok.1 h
  obtain ⟨binding, hbinding, rfl⟩ := Outcome.map_eq_ok.1 hinserted
  exact ⟨binding, hbinding, hrest⟩

/-- Everything that is bound is bound to a leaf. -/
theorem mem_bindLeaves (h : s.bindLeaves bindings leaves = .ok bound)
    {entry : Place × ProjectionBinding} (hentry : entry ∈ bound) :
    entry ∈ bindings ∨ ∃ leaf ∈ leaves, s.binding leaf.2 = .ok entry.2 := by
  induction leaves generalizing bindings with
  | nil =>
    cases h
    exact .inl hentry
  | cons leaf rest ih =>
    obtain ⟨binding, hbinding, hrest⟩ := bindLeaves_cons h
    rcases ih hrest with hinserted | ⟨other, hother, hbound⟩
    · rcases Projection.mem_insert hinserted with rfl | hmem
      · exact .inr ⟨leaf, List.mem_cons_self, hbinding⟩
      · exact .inl hmem
    · exact .inr ⟨other, List.mem_cons_of_mem leaf hother, hbound⟩

theorem lookup_bindLeaves_of_notMem (h : s.bindLeaves bindings leaves = .ok bound) {place : Place}
    (hplace : place ∉ leaves.map Prod.fst) : bound.lookup place = bindings.lookup place := by
  induction leaves generalizing bindings with
  | nil =>
    cases h
    rfl
  | cons leaf rest ih =>
    obtain ⟨binding, -, hrest⟩ := bindLeaves_cons h
    rw [List.map_cons, List.mem_cons, not_or] at hplace
    rw [ih hrest hplace.2, Projection.lookup_insert, if_neg hplace.1]

/-- Only leaves have bindings. -/
theorem mem_leaves_of_lookup (h : s.bindLeaves [] leaves = .ok bound) {place : Place}
    {binding : ProjectionBinding} (hlookup : bound.lookup place = some binding) :
    ∃ leaf ∈ leaves, leaf.1 = place := by
  by_contra hnone
  rw [lookup_bindLeaves_of_notMem h fun hplace ↦ hnone (List.mem_map.1 hplace)] at hlookup
  cases hlookup

/-- A place keeps what the last of its leaves is bound to. -/
theorem lookup_bindLeaves (h : s.bindLeaves bindings leaves = .ok bound) {place : Place}
    {last : Expression} (hlast : leaves.reverse.lookup place = some last) :
    ∃ binding, s.binding last = .ok binding ∧ bound.lookup place = some binding := by
  induction leaves using List.reverseRecOn generalizing bound with
  | nil => cases hlast
  | append_singleton front leaf ih =>
    rw [bindLeaves_append] at h
    obtain ⟨before, hbefore, h⟩ := Outcome.bind_eq_ok.1 h
    obtain ⟨binding, hbinding, hnil⟩ := bindLeaves_cons h
    cases hnil
    obtain ⟨other, e⟩ := leaf
    rw [List.reverse_append, List.reverse_singleton, List.singleton_append,
      Association.lookup_cons] at hlast
    rw [Projection.lookup_insert]
    split at hlast
    · next heq =>
      cases hlast
      exact ⟨binding, hbinding, if_pos heq⟩
    · next hne =>
      rw [if_neg hne]
      exact ih hbefore hlast

end Scope

end DocMapping
