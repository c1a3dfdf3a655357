import DocMapping.MongoQuery
import DocMapping.Proofs.Query.Decision
import Mathlib.Data.List.Induction

/-!
# The Order Asked of a Server

A server sorts by the elements of a document in turn.  Such a document can name a field only once,
where a list of fields may name it again: the field keeps the place where it is named first, and gets
the direction with which it is named last.  The server's order is finer than that of the list unless
this turns a field that can still decide.
-/

namespace DocMapping

/-! ## Reading an order -/

/-- The direction that a server reads. -/
def SortDirection.ofMongo? : Bson → Option SortDirection
  | .int32 number =>
    if number = 1 then some .ascending else if number = -1 then some .descending else none
  | _ => none

theorem SortDirection.ofMongo?_toMongo (direction : SortDirection) :
    ofMongo? direction.toMongo = some direction := by
  cases direction <;> rfl

/-- The fields by which a server sorts, in turn. -/
def Document.sortFields? (document : Document) : Option (List SortField) :=
  document.mapM fun (field, direction) ↦ (SortDirection.ofMongo? direction).map (SortField.mk field)

namespace SortField

/-- The element of a field. -/
def toMongo (s : SortField) : String × Bson := (s.field, s.direction.toMongo)

theorem sortFields?_toMongo (sorts : List SortField) :
    Document.sortFields? (sorts.map toMongo) = some sorts := by
  induction sorts with
  | nil => rfl
  | cons s rest ih =>
    have hread : (SortDirection.ofMongo? s.direction.toMongo).map (mk s.field) = some s := by
      rw [SortDirection.ofMongo?_toMongo]
      rfl
    unfold Document.sortFields? at ih ⊢
    simp only [List.map_cons, List.mapM_cons, ih, toMongo, hread]
    rfl

/-! ## Repeated fields -/

/-- Every field as it is named first. -/
def leading : List SortField → List SortField
  | [] => []
  | s :: rest => s :: (leading rest).filter fun other ↦ other.field ≠ s.field

/-- The field as it is named last. -/
def lastly (sorts : List SortField) (s : SortField) : SortField :=
  (sorts.reverse.find? fun other ↦ other.field = s.field).getD s

/-- What decides between documents that all fields leave equal. -/
def tieBreaker (sorts : List SortField) : List SortField :=
  if idElement ∈ sorts.map field then [] else [⟨idElement, .ascending⟩]

theorem mem_map_leading {sorts : List SortField} {name : String} :
    name ∈ (leading sorts).map field ↔ name ∈ sorts.map field := by
  induction sorts with
  | nil => rfl
  | cons s rest ih =>
    by_cases hname : name = s.field
    · simp [leading, hname]
    · rw [leading, List.map_cons, List.map_cons, List.mem_cons, List.mem_cons, ← ih]
      apply or_congr_right
      simp only [List.mem_map, List.mem_filter, decide_eq_true_eq]
      constructor
      · rintro ⟨other, ⟨hother, -⟩, rfl⟩
        exact ⟨other, hother, rfl⟩
      · rintro ⟨other, hother, rfl⟩
        exact ⟨other, ⟨hother, hname⟩, rfl⟩

theorem nodup_leading (sorts : List SortField) : ((leading sorts).map field).Nodup := by
  induction sorts with
  | nil => exact List.nodup_nil
  | cons s rest ih =>
    rw [leading, List.map_cons, List.nodup_cons]
    constructor
    · simp
    · exact ih.sublist ((List.filter_sublist).map field)

/-- A field that is named at the end is new or leaves the fields as they are. -/
theorem leading_concat (sorts : List SortField) (s : SortField) :
    leading (sorts ++ [s]) =
      if s.field ∈ sorts.map field then leading sorts else leading sorts ++ [s] := by
  induction sorts with
  | nil => simp [leading]
  | cons first rest ih =>
    rw [List.cons_append, leading, leading, ih, List.map_cons]
    by_cases hfirst : s.field = first.field
    · have hnamed : s.field ∈ first.field :: rest.map field := hfirst ▸ List.mem_cons_self
      rw [if_pos hnamed]
      split <;> simp [hfirst]
    · simp only [List.mem_cons, hfirst, false_or]
      split <;> simp [hfirst]

theorem lastly_concat (sorts : List SortField) (s other : SortField) :
    lastly (sorts ++ [s]) other = if s.field = other.field then s else lastly sorts other := by
  unfold lastly
  rw [List.reverse_concat, List.find?_cons]
  by_cases h : s.field = other.field <;> simp [h]

theorem field_lastly (sorts : List SortField) (s : SortField) : (lastly sorts s).field = s.field := by
  unfold lastly
  cases hfound : sorts.reverse.find? fun other ↦ other.field = s.field with
  | none => rfl
  | some found => simpa using List.find?_some hfound

/-- Naming a field again replaces its direction in its place. -/
theorem insert_map_toMongo {sorts : List SortField} (g : SortField → SortField)
    (hg : ∀ other, (g other).field = other.field) (hnodup : (sorts.map field).Nodup)
    {s : SortField} (hs : s.field ∈ sorts.map field) :
    Document.insert s.field s.direction.toMongo ((sorts.map g).map toMongo) =
      (sorts.map fun other ↦ if s.field = other.field then s else g other).map toMongo := by
  induction sorts with
  | nil => cases hs
  | cons first rest ih =>
    rw [List.map_cons, List.nodup_cons] at hnodup
    simp only [List.map_cons, Document.insert, toMongo, hg]
    by_cases hfirst : s.field = first.field
    · have hrest : ∀ other ∈ rest, s.field ≠ other.field := fun other hother heq ↦
        hnodup.1 (hfirst ▸ heq ▸ List.mem_map_of_mem hother)
      rw [if_pos hfirst, if_pos hfirst]
      congr 2
      exact List.map_congr_left fun other hother ↦ (if_neg (hrest other hother)).symm
    · have hs : s.field ∈ rest.map field := by simpa [hfirst] using hs
      rw [if_neg hfirst, if_neg hfirst, hg]
      exact congrArg _ (ih hnodup.2 hs)

/-- The document of a list of fields: their first places, and their last directions. -/
theorem ofList_toMongo (sorts : List SortField) :
    Document.ofList (sorts.map toMongo) = ((leading sorts).map (lastly sorts)).map toMongo := by
  induction sorts using List.reverseRecOn with
  | nil => rfl
  | append_singleton sorts s ih =>
    have hinsert : Document.ofList ((sorts ++ [s]).map toMongo) =
        Document.insert s.field s.direction.toMongo (Document.ofList (sorts.map toMongo)) := by
      simp [Document.ofList, List.foldl_append, toMongo]
    have hlastly : lastly (sorts ++ [s]) = fun other ↦
        if s.field = other.field then s else lastly sorts other :=
      funext (lastly_concat sorts s)
    rw [hinsert, ih, leading_concat, hlastly]
    by_cases hs : s.field ∈ sorts.map field
    · rw [if_pos hs]
      exact insert_map_toMongo _ (field_lastly sorts) (nodup_leading sorts) (mem_map_leading.2 hs)
    · have hnew : ∀ other ∈ leading sorts, s.field ≠ other.field := fun other hother heq ↦
        hs (mem_map_leading.1 (heq ▸ List.mem_map_of_mem hother))
      have hnames : s.field ∉ Document.names (((leading sorts).map (lastly sorts)).map toMongo) := by
        simpa [Document.names, toMongo, field_lastly, eq_comm] using hnew
      rw [if_neg hs, Document.insert_of_notMem hnames, List.map_append, List.map_append]
      congr 2
      · exact List.map_congr_left fun other hother ↦ (if_neg (hnew other hother)).symm
      · simp [toMongo]

theorem nodup_keys (sorts : List SortField) :
    (((leading sorts).map (lastly sorts) ++ tieBreaker sorts).map field).Nodup := by
  have hnames : ((leading sorts).map (lastly sorts)).map field = (leading sorts).map field := by
    simp [field_lastly]
  rw [List.map_append, hnames]
  apply (nodup_leading sorts).append
  · unfold tieBreaker
    split <;> simp
  · unfold tieBreaker
    split <;> simp_all [mem_map_leading]

/-! ## The finer order -/

/-- Where the coarse order decides between documents, the fine one decides in the same way. -/
def Refines (fine coarse : Document → Document → Ordering) : Prop :=
  ∀ a b, coarse a b ≠ .eq → fine a b = coarse a b

/-- The field is named last with another direction than first. -/
def IsTurned (sorts : List SortField) (s : SortField) : Prop := lastly sorts s ≠ s

instance (sorts : List SortField) (s : SortField) : Decidable (IsTurned sorts s) :=
  inferInstanceAs (Decidable (_ ≠ _))

/-- The path of the field begins with that of a field before it. -/
def IsCovered (sorts : List SortField) (s : SortField) : Prop :=
  ∃ earlier ∈ (leading sorts).takeWhile (fun other ↦ other.field ≠ s.field), earlier.Covers s

instance (sorts : List SortField) (s : SortField) : Decidable (IsCovered sorts s) :=
  inferInstanceAs (Decidable (∃ _ ∈ _, _))

/-- A field that is named again decides nothing. -/
theorem orderBy_leading (sorts : List SortField) (a b : Document) :
    orderBy (leading sorts) a b = orderBy sorts a b := by
  induction sorts with
  | nil => rfl
  | cons s rest ih =>
    rw [leading, orderBy, orderBy]
    cases hs : s.order a b with
    | lt => rfl
    | gt => rfl
    | eq => rw [orderBy_filter ((order_eq_iff s a b).1 hs), ih]

theorem takeWhile_leading {sorts front back : List SortField} {s : SortField}
    (h : leading sorts = front ++ s :: back) :
    (leading sorts).takeWhile (fun other ↦ other.field ≠ s.field) = front := by
  have hnodup := nodup_leading sorts
  rw [h, List.map_append, List.map_cons, List.nodup_append] at hnodup
  have hfront : ∀ other ∈ front, other.field ≠ s.field := fun other hother ↦
    hnodup.2.2 _ (List.mem_map_of_mem hother) _ List.mem_cons_self
  rw [h, List.takeWhile_append_of_pos (by simpa using hfront)]
  simp

/-- A field that an earlier one covers may be turned. -/
theorem refines_of_isCovered {sorts : List SortField}
    (h : ∀ s ∈ leading sorts, IsTurned sorts s → IsCovered sorts s) (more : List SortField) :
    Refines (orderBy ((leading sorts).map (lastly sorts) ++ more)) (orderBy sorts) := by
  intro a b hne
  have hmap : orderBy ((leading sorts).map (lastly sorts)) a b = orderBy (leading sorts) a b := by
    apply orderBy_map
    intro front s back hsplit hfront
    by_cases hturned : IsTurned sorts s
    · obtain ⟨earlier, hearlier, hcovers⟩ := h s (by simp [hsplit]) hturned
      rw [takeWhile_leading hsplit] at hearlier
      have hkey : s.key a = s.key b :=
        hcovers.key_eq ((orderBy_eq_iff front a b).1 hfront earlier hearlier)
      have hlast : (lastly sorts s).key a = (lastly sorts s).key b := by
        rw [key_congr (field_lastly sorts s), hkey]
      rw [(order_eq_iff s a b).2 hkey, (order_eq_iff _ a b).2 hlast]
    · rw [not_not.1 hturned]
  rw [orderBy_append, hmap, orderBy_leading]
  cases hsorts : orderBy sorts a b with
  | eq => exact absurd hsorts hne
  | lt => rfl
  | gt => rfl

/-- A turned field that no earlier one covers turns some documents around. -/
theorem isCovered_of_refines {sorts more : List SortField}
    (h : Refines (orderBy ((leading sorts).map (lastly sorts) ++ more)) (orderBy sorts))
    {s : SortField} (hs : s ∈ leading sorts) (hturned : IsTurned sorts s) : IsCovered sorts s := by
  by_contra hcovered
  obtain ⟨front, back, hsplit⟩ := List.append_of_mem hs
  have hapart : ∀ t ∈ front, ¬t.Covers s := by
    intro t ht hcovers
    exact hcovered ⟨t, (takeWhile_leading hsplit).symm ▸ ht, hcovers⟩
  obtain ⟨a, b, hfront, hdiffer⟩ := exists_decided hapart
  have hdirection : (lastly sorts s).direction ≠ s.direction := by
    intro hsame
    apply hturned
    cases s
    exact congrArg₂ mk (field_lastly sorts _) hsame
  have hlist : orderBy sorts a b = (s.order a b).then (orderBy back a b) := by
    rw [← orderBy_leading, hsplit, orderBy_append, (orderBy_eq_iff front a b).2 hfront]
    rfl
  have hserver : orderBy ((leading sorts).map (lastly sorts) ++ more) a b =
      (s.order a b).swap.then (orderBy (back.map (lastly sorts) ++ more) a b) := by
    have hfront' : orderBy (front.map (lastly sorts)) a b = .eq := by
      apply (orderBy_eq_iff _ a b).2
      intro last hlast
      obtain ⟨t, ht, rfl⟩ := List.mem_map.1 hlast
      rw [key_congr (field_lastly sorts t), hfront t ht]
    rw [hsplit, List.map_append, List.map_cons, List.append_assoc, orderBy_append, hfront',
      List.cons_append, orderBy, order_turned (field_lastly sorts s) hdirection]
    rfl
  have hne : s.order a b ≠ .eq := fun heq ↦ hdiffer ((order_eq_iff s a b).1 heq)
  have hboth := h a b
  rw [hlist, hserver] at hboth
  cases horder : s.order a b with
  | eq => exact hne horder
  | lt => simp [horder] at hboth
  | gt => simp [horder] at hboth

end SortField

/-! ## Queries -/

namespace Query

open SortField

theorem mongoSort?_eq {q : Query} (h : q.sort ≠ []) :
    q.mongoSort? =
      some (((leading q.sort).map (lastly q.sort) ++ tieBreaker q.sort).map toMongo) := by
  have hempty : q.sort.isEmpty = false := by simpa using h
  have hid : ((Document.ofList (q.sort.map toMongo)).get? idElement).isSome = true ↔
      idElement ∈ q.sort.map field := by
    rw [Document.get?_isSome, ofList_toMongo, ← mem_map_leading]
    simp [Document.names, toMongo, field_lastly]
  unfold mongoSort?
  rw [hempty]
  change some (if ((Document.ofList (q.sort.map toMongo)).get? idElement).isSome = true then _
    else _) = _
  unfold tieBreaker
  by_cases hmem : idElement ∈ q.sort.map field
  · rw [if_pos (hid.2 hmem), if_pos hmem, List.append_nil]
    exact congrArg some (ofList_toMongo q.sort)
  · rw [if_neg (mt hid.1 hmem), if_neg hmem, List.map_append]
    exact congrArg (fun fields ↦ some (fields ++ _)) (ofList_toMongo q.sort)

/-- A server is asked to sort by every field of the list once, at the place where it is named first
and in the direction with which it is named last, and at the end by the identifier, unless that is
one of the fields.  These are the directions of the first places exactly if no field is turned, and
the server keeps the order by the list exactly if every turned field is covered. -/
theorem mongoSort_keeps {q : Query} (h : q.sort ≠ []) :
    ∃ document keys, q.mongoSort? = some document ∧ document.Distinct ∧
      document.sortFields? = some keys ∧
      keys = (leading q.sort).map (lastly q.sort) ++ tieBreaker q.sort ∧
      (keys = leading q.sort ++ tieBreaker q.sort ↔ ∀ s ∈ leading q.sort, ¬IsTurned q.sort s) ∧
      (Refines (orderBy keys) (orderBy q.sort) ↔
        ∀ s ∈ leading q.sort, IsTurned q.sort s → IsCovered q.sort s) := by
  refine ⟨_, _, mongoSort?_eq h, ?_, sortFields?_toMongo _, rfl, ?_, ?_⟩
  · unfold Document.Distinct Document.names
    rw [List.map_map]
    exact nodup_keys q.sort
  · unfold IsTurned
    simp only [List.append_left_inj, not_not]
    constructor
    · intro hsame s hs
      exact List.map_inj_left.1 (hsame.trans (List.map_id _).symm) s hs
    · intro hall
      exact (List.map_congr_left hall).trans (List.map_id _)
  · exact ⟨fun hrefines s ↦ isCovered_of_refines hrefines, fun hall ↦ refines_of_isCovered hall _⟩

/-- The whole orbit comes before its period, which therefore decides nothing. -/
theorem mongoSort_keeps_orbits :
    let q : Query := { everything with
      sort := [⟨"orbit", .descending⟩, ⟨"name", .ascending⟩, ⟨"orbit.period", .ascending⟩,
        ⟨"orbit.period", .descending⟩] }
    let keys : List SortField := [⟨"orbit", .descending⟩, ⟨"name", .ascending⟩,
      ⟨"orbit.period", .descending⟩, ⟨idElement, .ascending⟩]
    q.sort ≠ [] ∧ q.mongoSort? = some (keys.map toMongo) ∧
      Refines (orderBy keys) (orderBy q.sort) := by
  intro q keys
  have hsort : q.sort ≠ [] := by simp [q]
  obtain ⟨-, found, -, -, -, hkeys, -, hrefines⟩ := mongoSort_keeps hsort
  have hfound : found = keys := hkeys.trans (by decide)
  have hcovered : ∀ s ∈ leading q.sort, IsTurned q.sort s → IsCovered q.sort s := by decide
  exact ⟨hsort, rfl, hfound ▸ hrefines.2 hcovered⟩

/-- A server sorts planets by their names backwards, where the list names these again in the other
direction. -/
theorem mongoSort_turns_names :
    let q : Query := { everything with
      sort := [⟨"name", .ascending⟩, ⟨"name", .descending⟩] }
    let mars : Document := [("name", .string "Mars")]
    let saturn : Document := [("name", .string "Saturn")]
    q.mongoSort? = some [("name", .int32 (-1)), (idElement, .int32 1)] ∧
      Document.sortFields? [("name", .int32 (-1)), (idElement, .int32 1)] =
        some [⟨"name", .descending⟩, ⟨idElement, .ascending⟩] ∧
      orderBy q.sort mars saturn = .lt ∧
      orderBy [⟨"name", .descending⟩, ⟨idElement, .ascending⟩] mars saturn = .gt := by
  refine ⟨rfl, rfl, by decide, by decide⟩

end Query

end DocMapping
