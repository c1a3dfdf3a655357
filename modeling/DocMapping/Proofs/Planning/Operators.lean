import DocMapping.Proofs.Planning.Conditions
import DocMapping.Proofs.Query.Sorting
import Mathlib.Data.List.Induction

/-!
# Operators Keep their Written Order

A query is planned as one condition, one order and two bounds, whatever operators it is made of.
What the plan selects is still what the operators leave of the documents one after the other:
conditions may move before sorting, a later sort key refines the order so far, and the bounds add
up.  The planner refuses the operators for which this would fail.
-/

namespace DocMapping

/-! ## Operators on sequences -/

/-- An operator that leaves entities whole.  The numbers of documents are constants. -/
inductive SequenceOperator where
  | filter (f : Lambda)
  | orderBy (direction : SortDirection) (f : Lambda)
  | thenBy (direction : SortDirection) (f : Lambda)
  | skip (count : Value)
  | take (count : Value)
  /-- The projection to the argument itself. -/
  | identity (parameter : String)

namespace SequenceOperator

def method : SequenceOperator → Method
  | filter _ => .filter
  | orderBy .ascending _ => .orderBy
  | orderBy .descending _ => .orderByDescending
  | thenBy .ascending _ => .thenBy
  | thenBy .descending _ => .thenByDescending
  | skip _ => .skip
  | take _ => .take
  | identity _ => .select

def argument : SequenceOperator → Expression
  | filter f => f.toExpression
  | orderBy _ f => f.toExpression
  | thenBy _ f => f.toExpression
  | skip count => .constant count
  | take count => .constant count
  | identity parameter => .lambda parameter (.parameter parameter)

/-- The operator as it is written after a query. -/
def call (o : SequenceOperator) (receiver : Expression) : Expression :=
  .call o.method [receiver, o.argument]

/-- The operator starts a new order. -/
def isOrderBy : SequenceOperator → Bool
  | orderBy _ _ => true
  | _ => false

end SequenceOperator

/-- Documents and the fields that they have been sorted by. -/
structure Arranged where
  fields : List SortField
  documents : List Document

/-- The documents that meet a condition. -/
def Predicate.keep (parameters : Parameters) (documents : List Document) :
    Predicate → Outcome (List Document)
  | always holds => .ok (documents.filter fun _ ↦ holds)
  | filter condition =>
    (condition.mapM (Operand.bind parameters)).map fun bound ↦ documents.filter bound.holds

/-- The number of documents that a constant stands for. -/
def Value.size (value : Value) : Nat := (value.integer?.getD 0).toNat

namespace EntityType

/-- The field that a function of entities of the type sorts by. -/
def sortField (t : EntityType) (direction : SortDirection) (f : Lambda) : Outcome SortField := do
  match ← ((⟨f.parameter, t⟩ : Scope).resolve f.body).toOutcome with
  | some (.property path _) => return ⟨Text.dotted path, direction⟩
  | _ => throw (.planning (.sortKey f.body.text))

/-- What one operator leaves of documents. -/
def applyOperator (t : EntityType) (parameters : Parameters) (a : Arranged) :
    SequenceOperator → Outcome Arranged
  | .filter f => do
    let predicate ← (⟨f.parameter, t⟩ : Scope).predicate f.body
    (predicate.keep parameters a.documents).map fun kept ↦ ⟨a.fields, kept⟩
  | .orderBy direction f =>
    (t.sortField direction f).map fun field ↦ ⟨[field], SortField.documents [field] a.documents⟩
  | .thenBy direction f =>
    (t.sortField direction f).map fun field ↦
      ⟨a.fields ++ [field], SortField.documents (a.fields ++ [field]) a.documents⟩
  | .skip count => .ok ⟨a.fields, a.documents.drop count.size⟩
  | .take count => .ok ⟨a.fields, a.documents.take count.size⟩
  | .identity _ => .ok a

end EntityType

/-! ## Conditions -/

namespace Predicate

variable {parameters : Parameters} {documents kept : List Document} {predicate : Predicate}

theorem keep_sublist (h : predicate.keep parameters documents = .ok kept) :
    kept.Sublist documents := by
  cases predicate with
  | always holds =>
    cases h
    exact List.filter_sublist
  | filter condition =>
    obtain ⟨bound, -, rfl⟩ := Outcome.map_eq_ok.1 h
    exact List.filter_sublist

/-- Documents can be sorted before or after they are selected. -/
theorem keep_documents (sorts : List SortField) (documents : List Document) :
    predicate.keep parameters (SortField.documents sorts documents) =
      (predicate.keep parameters documents).map (SortField.documents sorts) := by
  cases predicate with
  | always holds => exact congrArg Except.ok (SortField.documents_filter sorts _ documents)
  | filter condition =>
    rw [keep, keep]
    cases condition.mapM (Operand.bind parameters) with
    | error fault => rfl
    | ok bound => exact congrArg Except.ok (SortField.documents_filter sorts _ documents)

theorem keep_and (a b : Filter Operand) (documents : List Document) :
    (filter (a.and b)).keep parameters documents =
      ((filter a).keep parameters documents).bind ((filter b).keep parameters) := by
  have hkeep (condition : Filter Operand) (items : List Document) :
      (filter condition).keep parameters items =
        (condition.mapM (Operand.bind parameters)).map fun bound ↦ items.filter bound.holds := rfl
  rw [hkeep, hkeep, Filter.mapM_and_eq]
  cases a.mapM (Operand.bind parameters) with
  | error fault => rfl
  | ok a' =>
    change _ = (filter b).keep parameters (documents.filter a'.holds)
    rw [hkeep]
    cases b.mapM (Operand.bind parameters) with
    | error fault => rfl
    | ok b' =>
      change Except.ok (documents.filter (a'.and b').holds) =
        Except.ok ((documents.filter a'.holds).filter b'.holds)
      rw [List.filter_filter]
      exact congrArg Except.ok
        (List.filter_congr fun _ _ ↦ (Filter.holds_and a' b').trans (Bool.and_comm _ _))

end Predicate

/-- The query for the documents in a range. -/
def Query.between (offset limit : Option Nat) : Query :=
  { Query.everything with offset := offset, limit := limit }

namespace PartialPlan

variable {parameters : Parameters} {documents : List Document}

/-- What is selected is selected from what was selected before. -/
theorem keep_addPredicate (hids : ∀ d ∈ documents, (d.get? idElement).isSome = true)
    (s : PartialPlan) (predicate : Predicate) :
    (s.addPredicate predicate).selection.condition.keep parameters documents =
      (s.selection.condition.keep parameters documents).bind (predicate.keep parameters) := by
  have hrestrict (condition : Filter Operand) :
      (s.addPredicate (.filter condition)).selection.condition.keep parameters documents =
        (s.selection.condition.keep parameters documents).bind
          ((Predicate.filter condition).keep parameters) := by
    unfold Selection.condition addPredicate
    cases s.selection.filter with
    | none =>
      have hall : documents.filter (fun _ ↦ true) = documents := List.filter_eq_self.2 fun _ _ ↦ rfl
      change _ = (Predicate.filter condition).keep parameters (documents.filter fun _ ↦ true)
      rw [hall]
    | some existing => exact Predicate.keep_and existing condition documents
  cases predicate with
  | filter condition => exact hrestrict condition
  | always holds =>
    cases hkept : s.selection.condition.keep parameters documents with
    | error fault =>
      cases holds with
      | true => exact hkept
      | false =>
        have h := hrestrict (.present idElement false)
        rw [hkept] at h
        exact h
    | ok kept =>
      cases holds with
      | true =>
        refine hkept.trans (congrArg Except.ok ?_)
        exact (List.filter_eq_self.2 fun _ _ ↦ rfl).symm
      | false =>
        have h := hrestrict (.present idElement false)
        rw [hkept] at h
        refine h.trans (congrArg Except.ok (List.filter_congr fun d hd ↦ ?_))
        have hresolve : d.resolve idElement = d.get? idElement := by
          rw [Document.resolve, Text.segments_of_isSegment EntityType.isSegment_idElement]
          rfl
        rw [Filter.holds, hresolve, hids d ((Predicate.keep_sublist hkept).subset hd)]
        rfl

/-! ## Steps of the planner -/

/-- The plan so far reads the result from documents: it selects by its condition, sorts, and counts
off by constant bounds. -/
structure Reads (s : PartialPlan) (t : EntityType) (parameters : Parameters)
    (documents : List Document) (offset limit : Option Nat) (result : Outcome Arranged) : Prop where
  shaper : s.shaper = none
  entity : s.selection.entity = t
  skipped : s.selection.skip = offset.map .constant
  limited : s.selection.limit = limit.map .constant
  result : (s.selection.condition.keep parameters documents).map (fun kept ↦
    ⟨s.selection.sort,
      (Query.between offset limit).range (SortField.documents s.selection.sort kept)⟩) = result

theorem closed?_of_ensureOpen {s : PartialPlan} {operator : String}
    (h : s.ensureOpen operator = .ok ()) : s.selection.skip = none ∧ s.selection.limit = none := by
  unfold ensureOpen closed? at h
  cases hshaper : s.shaper with
  | some shaper => rw [hshaper] at h; cases h
  | none =>
    cases hlimit : s.selection.limit with
    | some limit => rw [hshaper, hlimit] at h; cases h
    | none =>
      cases hskip : s.selection.skip with
      | some skip => rw [hshaper, hlimit, hskip] at h; cases h
      | none => exact ⟨rfl, rfl⟩

namespace Reads

variable {s s' : PartialPlan} {t : EntityType} {offset limit : Option Nat}
  {result : Outcome Arranged}
  {fallback : Bool} {method : Method} {call : Expression}

/-- No bound stands before a condition or an order. -/
theorem unbounded (h : s.Reads t parameters documents offset limit result) {operator : String}
    (hopen : s.ensureOpen operator = .ok ()) : offset = none ∧ limit = none := by
  obtain ⟨hskip, hlimit⟩ := closed?_of_ensureOpen hopen
  exact ⟨Option.map_eq_none_iff.1 (h.skipped.symm.trans hskip),
    Option.map_eq_none_iff.1 (h.limited.symm.trans hlimit)⟩

theorem filter (h : s.Reads t parameters documents offset limit result)
    (hids : ∀ d ∈ documents, (d.get? idElement).isSome = true) {f : Lambda}
    (happly : s.apply fallback .filter [f.toExpression] call = .ok s') :
    s'.Reads t parameters documents offset limit
      (result.bind fun a ↦ t.applyOperator parameters a (.filter f)) ∧
      s'.selection.sort = s.selection.sort := by
  obtain ⟨_, hopen, happly⟩ := Outcome.bind_eq_ok.1 happly
  obtain ⟨_, hlambda, happly⟩ := Outcome.bind_eq_ok.1 happly
  cases hlambda
  obtain ⟨_, -, happly⟩ := Outcome.bind_eq_ok.1 happly
  obtain ⟨predicate, hpredicate, happly⟩ := Outcome.bind_eq_ok.1 happly
  cases happly
  obtain ⟨rfl, rfl⟩ := h.unbounded hopen
  obtain ⟨hshaper, hentity, hskipped, hlimited, rfl⟩ := h
  obtain ⟨hshaper', hskip, hlimit⟩ := s.addPredicate_bounds predicate
  have hother : (s.addPredicate predicate).selection.entity = s.selection.entity ∧
      (s.addPredicate predicate).selection.sort = s.selection.sort := by
    cases predicate with
    | always holds => cases holds <;> exact ⟨rfl, rfl⟩
    | filter condition => exact ⟨rfl, rfl⟩
  refine ⟨⟨hshaper'.trans hshaper, hother.1.trans hentity, hskip.trans hskipped,
    hlimit.trans hlimited, ?_⟩, hother.2⟩
  have happly : (fun a ↦ t.applyOperator parameters a (.filter f)) = fun a ↦
      (predicate.keep parameters a.documents).map fun kept ↦ ⟨a.fields, kept⟩ := by
    have hpredicate : (⟨f.parameter, t⟩ : Scope).predicate f.body = .ok predicate := by
      rw [← hentity]
      exact hpredicate
    funext a
    rw [EntityType.applyOperator, hpredicate]
    rfl
  rw [keep_addPredicate hids, hother.2, happly]
  cases s.selection.condition.keep parameters documents with
  | error fault => rfl
  | ok kept =>
    change _ = (predicate.keep parameters (SortField.documents s.selection.sort kept)).map _
    rw [Predicate.keep_documents]
    change (predicate.keep parameters kept).map _ = _
    cases predicate.keep parameters kept <;> rfl

/-- A new order makes no use of the order so far. -/
theorem sort (h : s.Reads t parameters documents none none result) {fields : List SortField}
    (hfields : ∀ items, SortField.documents fields (SortField.documents s.selection.sort items) =
      SortField.documents fields items) :
    ({ s with selection := { s.selection with sort := fields } } : PartialPlan).Reads t parameters
      documents none none
      (result.map fun a ↦ ⟨fields, SortField.documents fields a.documents⟩) := by
  obtain ⟨hshaper, hentity, hskipped, hlimited, rfl⟩ := h
  refine ⟨hshaper, hentity, hskipped, hlimited, ?_⟩
  change (s.selection.condition.keep parameters documents).map _ = _
  cases s.selection.condition.keep parameters documents with
  | error fault => rfl
  | ok kept => exact congrArg (fun items ↦ Except.ok (Arranged.mk fields items)) (hfields kept).symm

theorem sortField_eq (h : s.Reads t parameters documents offset limit result)
    (direction : SortDirection) (f : Lambda) :
    s.sortField direction f = t.sortField direction f := by
  rw [← h.entity]
  rfl

theorem orderBy (h : s.Reads t parameters documents offset limit result)
    (hsort : s.selection.sort = []) {direction : SortDirection} {f : Lambda}
    (happly : s.orderBy method direction call [f.toExpression] = .ok s') :
    s'.Reads t parameters documents offset limit
      (result.bind fun a ↦ t.applyOperator parameters a (.orderBy direction f)) := by
  obtain ⟨_, hopen, happly⟩ := Outcome.bind_eq_ok.1 happly
  obtain ⟨_, hlambda, happly⟩ := Outcome.bind_eq_ok.1 happly
  cases hlambda
  obtain ⟨field, hfield, happly⟩ := Outcome.bind_eq_ok.1 happly
  cases happly
  obtain ⟨rfl, rfl⟩ := h.unbounded hopen
  have hresult : (result.bind fun a ↦ t.applyOperator parameters a (.orderBy direction f)) =
      result.map fun a ↦ ⟨[field], SortField.documents [field] a.documents⟩ := by
    rw [h.sortField_eq] at hfield
    cases result with
    | error fault => rfl
    | ok a =>
      change (t.sortField direction f).map _ = _
      rw [hfield]
      rfl
  rw [hresult]
  refine h.sort fun items ↦ ?_
  rw [hsort, SortField.documents_nil]

theorem thenBy (h : s.Reads t parameters documents offset limit result) {direction : SortDirection}
    {f : Lambda} (happly : s.thenBy method direction call [f.toExpression] = .ok s') :
    s'.Reads t parameters documents offset limit
      (result.bind fun a ↦ t.applyOperator parameters a (.thenBy direction f)) ∧
      s.selection.sort ≠ [] := by
  obtain ⟨_, hopen, happly⟩ := Outcome.bind_eq_ok.1 happly
  dsimp only at happly
  split at happly
  · cases happly
  next hsort =>
  obtain ⟨_, hlambda, happly⟩ := Outcome.bind_eq_ok.1 happly
  cases hlambda
  obtain ⟨field, hfield, happly⟩ := Outcome.bind_eq_ok.1 happly
  cases happly
  obtain ⟨rfl, rfl⟩ := h.unbounded hopen
  have hresult : (result.bind fun a ↦ t.applyOperator parameters a (.thenBy direction f)) =
      result.map fun a ↦ ⟨s.selection.sort ++ [field],
        SortField.documents (s.selection.sort ++ [field]) a.documents⟩ := by
    rw [h.sortField_eq] at hfield
    rw [← h.result]
    cases s.selection.condition.keep parameters documents with
    | error fault => rfl
    | ok kept =>
      change (t.sortField direction f).map _ = _
      rw [hfield]
      rfl
  rw [hresult]
  exact ⟨h.sort (SortField.documents_append s.selection.sort [field]),
    fun hnil ↦ hsort (List.isEmpty_iff.2 hnil)⟩

theorem size_constant {count : Value} {operand : SizeOperand}
    (h : call.size (.constant count) = .ok operand) : operand = .constant count.size := by
  rw [Expression.size] at h
  unfold Value.size
  split at h
  · next n hcount =>
    cases h
    rw [hcount]
    rfl
  · cases h

/-- New bounds count off from what the bounds so far leave. -/
theorem bound (h : s.Reads t parameters documents offset limit result)
    (offset' limit' : Option Nat) (cut : List Document → List Document)
    {skip take : Option SizeOperand} (hskip : skip = offset'.map .constant)
    (htake : take = limit'.map .constant)
    (hcut : ∀ items : List Document, items.length ≤ documents.length →
      (Query.between offset' limit').range items = cut ((Query.between offset limit).range items)) :
    ({ s with selection := { s.selection with skip := skip, limit := take } } : PartialPlan).Reads t
      parameters documents offset' limit' (result.bind fun a ↦ .ok ⟨a.fields, cut a.documents⟩) := by
  obtain ⟨hshaper, hentity, -, -, rfl⟩ := h
  refine ⟨hshaper, hentity, hskip, htake, ?_⟩
  change (s.selection.condition.keep parameters documents).map _ = _
  cases hkept : s.selection.condition.keep parameters documents with
  | error fault => rfl
  | ok kept =>
    refine congrArg (fun items ↦ Except.ok (Arranged.mk s.selection.sort items)) (hcut _ ?_)
    rw [SortField.length_documents]
    exact (Predicate.keep_sublist hkept).length_le

/-- Documents that were skipped before stay skipped; there are never more than can be skipped. -/
theorem skip (h : s.Reads t parameters documents offset limit result)
    (hlength : documents.length ≤ greatestCount) {count : Value}
    (happly : s.skip call [.constant count] = .ok s') :
    ∃ offset', s'.Reads t parameters documents offset' limit
      (result.bind fun a ↦ t.applyOperator parameters a (.skip count)) ∧
      s'.selection.sort = s.selection.sort := by
  unfold PartialPlan.skip at happly
  dsimp only at happly
  split at happly
  · cases happly
  next hnone =>
  obtain rfl : limit = none := by
    rw [h.limited] at hnone
    cases limit with
    | none => rfl
    | some limit => exact absurd rfl hnone
  obtain ⟨_, hargument, happly⟩ := Outcome.bind_eq_ok.1 happly
  cases hargument
  obtain ⟨size, hsize, happly⟩ := Outcome.bind_eq_ok.1 happly
  obtain rfl := size_constant hsize
  rw [h.skipped] at happly
  cases offset with
  | none =>
    cases happly
    exact ⟨_, h.bound (some count.size) none (List.drop count.size) rfl h.limited fun _ _ ↦ rfl,
      rfl⟩
  | some first =>
    cases happly
    refine ⟨_, h.bound (some (min (first + count.size) greatestCount)) none (List.drop count.size)
      rfl h.limited fun items hitems ↦ ?_, rfl⟩
    change items.drop (min (first + count.size) greatestCount) = (items.drop first).drop count.size
    rw [List.drop_drop]
    rcases Nat.le_total (first + count.size) greatestCount with hle | hle
    · rw [Nat.min_eq_left hle]
    · rw [Nat.min_eq_right hle, List.drop_of_length_le (hitems.trans hlength),
        List.drop_of_length_le ((hitems.trans hlength).trans hle)]

/-- Of documents that are taken, only some may have been taken before. -/
theorem take (h : s.Reads t parameters documents offset limit result) {count : Value}
    (happly : s.take call [.constant count] = .ok s') :
    ∃ limit', s'.Reads t parameters documents offset limit'
      (result.bind fun a ↦ t.applyOperator parameters a (.take count)) ∧
      s'.selection.sort = s.selection.sort := by
  obtain ⟨_, hargument, happly⟩ := Outcome.bind_eq_ok.1 happly
  cases hargument
  obtain ⟨size, hsize, happly⟩ := Outcome.bind_eq_ok.1 happly
  obtain rfl := size_constant hsize
  rw [h.limited] at happly
  cases limit with
  | none =>
    cases happly
    exact ⟨_, h.bound offset (some count.size) (List.take count.size) h.skipped rfl fun _ _ ↦ rfl,
      rfl⟩
  | some first =>
    cases happly
    refine ⟨_, h.bound offset (some (min first count.size)) (List.take count.size) h.skipped rfl
      fun items _ ↦ ?_, rfl⟩
    change (items.drop (offset.getD 0)).take _ = ((items.drop (offset.getD 0)).take first).take _
    rw [List.take_take, Nat.min_comm]

theorem identity (h : s.Reads t parameters documents offset limit result) {parameter : String}
    (happly : s.select fallback call [.lambda parameter (.parameter parameter)] = .ok s') :
    s'.Reads t parameters documents offset limit
      (result.bind fun a ↦ t.applyOperator parameters a (.identity parameter)) ∧
      s'.selection.sort = s.selection.sort := by
  have hresult : (result.bind fun a ↦ t.applyOperator parameters a (.identity parameter)) =
      result := by
    cases result <;> rfl
  rw [hresult]
  unfold select at happly
  rw [h.shaper] at happly
  obtain ⟨_, hlambda, happly⟩ := Outcome.bind_eq_ok.1 happly
  cases hlambda
  have hidentity : (⟨parameter, .parameter parameter⟩ : Lambda).isIdentity = true :=
    beq_self_eq_true _
  rw [if_pos hidentity] at happly
  cases happly
  exact ⟨h, rfl⟩

/-- One operator is applied to what the plan read before it.  Only a new order sorts what was not
sorted. -/
theorem step (h : s.Reads t parameters documents offset limit result)
    (hids : ∀ d ∈ documents, (d.get? idElement).isSome = true)
    (hlength : documents.length ≤ greatestCount) {o : SequenceOperator}
    (horderBy : o.isOrderBy = true → s.selection.sort = [])
    (happly : s.apply fallback o.method [o.argument] call = .ok s') :
    ∃ offset' limit', s'.Reads t parameters documents offset' limit'
      (result.bind fun a ↦ t.applyOperator parameters a o) ∧
      (o.isOrderBy = false → s.selection.sort = [] → s'.selection.sort = []) := by
  cases o with
  | filter f =>
    obtain ⟨hreads, hsort⟩ := h.filter hids happly
    exact ⟨_, _, hreads, fun _ ↦ hsort.trans⟩
  | orderBy direction f =>
    have hreads : s'.Reads t parameters documents offset limit
        (result.bind fun a ↦ t.applyOperator parameters a (.orderBy direction f)) := by
      cases direction <;> exact h.orderBy (horderBy rfl) happly
    exact ⟨_, _, hreads, fun hnot ↦ (by cases hnot)⟩
  | thenBy direction f =>
    obtain ⟨hreads, hsort⟩ : s'.Reads t parameters documents offset limit
        (result.bind fun a ↦ t.applyOperator parameters a (.thenBy direction f)) ∧
        s.selection.sort ≠ [] := by
      cases direction <;> exact h.thenBy happly
    exact ⟨_, _, hreads, fun _ hnil ↦ absurd hnil hsort⟩
  | skip count =>
    obtain ⟨_, hreads, hsort⟩ := h.skip hlength happly
    exact ⟨_, _, hreads, fun _ ↦ hsort.trans⟩
  | take count =>
    obtain ⟨_, hreads, hsort⟩ := h.take happly
    exact ⟨_, _, hreads, fun _ ↦ hsort.trans⟩
  | identity parameter =>
    obtain ⟨hreads, hsort⟩ := h.identity happly
    exact ⟨_, _, hreads, fun _ ↦ hsort.trans⟩

end Reads

theorem bind_constants (count : Option Nat) :
    Selection.bindOption (·.bind parameters) (count.map SizeOperand.constant) = .ok count := by
  cases count <;> rfl

/-- The query of a finished plan reads what the plan read before. -/
theorem Reads.select {s : PartialPlan} {t : EntityType} {offset limit : Option Nat}
    {result : Outcome Arranged} (h : s.Reads t parameters documents offset limit result) :
    ((s.finish .sequence).selection.toQuery parameters none).map (·.select documents) =
      result.map Arranged.documents := by
  obtain ⟨hshaper, -, hskipped, hlimited, rfl⟩ := h
  have hselect (filter : Option (Filter Bson)) :
      (⟨filter, s.selection.sort, offset, Selection.smaller limit none, none⟩ : Query).select
        documents = (Query.between offset limit).range (SortField.documents s.selection.sort
          (documents.filter (⟨filter, [], none, none, none⟩ : Query).accepts)) := by
    have hlimit : Selection.smaller limit none = limit := by cases limit <;> rfl
    rw [hlimit]
    exact List.map_id' _
  have hpaths : s.wholeEntity.paths? = none := rfl
  rw [finish_sequence hshaper]
  unfold Selection.toQuery Selection.condition
  dsimp only
  rw [hskipped, hlimited, bind_constants, bind_constants, hpaths]
  cases s.selection.filter with
  | none => exact congrArg Except.ok (hselect none)
  | some condition =>
    dsimp only [Selection.bindOption, Predicate.keep]
    cases condition.mapM (Operand.bind parameters) with
    | error fault => rfl
    | ok bound => exact congrArg Except.ok (hselect (some bound))

end PartialPlan

namespace Books

def volume (id : Int64) (writer : String) (tags : List String) : Document :=
  [(idElement, .int64 id), ("Kind", .string "book"), ("Tags", .array (tags.map .string)),
    ("Author", .document [("Name", .string writer), ("Alive", .boolean false)])]

/-- The second book about the sea of those by the writers at the end of the alphabet. -/
def operators : List SequenceOperator :=
  let b := Expression.parameter "b"
  [.filter ⟨"b", .call .contains [.member b "Tags", .constant (.string "sea")]⟩,
    .orderBy .descending ⟨"b", .member (.member b "Author") "Name"⟩,
    .thenBy .ascending ⟨"b", .member b "Id"⟩, .identity "b", .skip (.int32 1), .take (.int64 7),
    .take (.int32 1)]

def shelf : List Document :=
  [volume 3 "Ann" ["sea"], volume 1 "Bob" ["sea", "salt"], volume 2 "Ann" []]

end Books

end DocMapping
