import DocMapping.Proofs.Bson.Order
import DocMapping.Proofs.Bson.Paths
import DocMapping.Proofs.Query.Sorting
import DocMapping.Proofs.Text.Dotted

/-!
# What a Field Can Decide

A field decides between two documents if it is the first one by which they differ.  A field whose
path begins with that of an earlier one never does: documents that are equal at a path are equal
everywhere below it.  Every other field does so somewhere, because there are documents that hold
nothing but a value at its path.
-/

namespace DocMapping

/-! ## Below a path -/

/-- What the order sees at a path inside of a value; a missing element is seen as null. -/
def SortKey.inside : SortKey → List String → SortKey
  | key, [] => key
  | .document elements, name :: rest => ((elements.lookup name).getD .null).inside rest
  | _, _ :: _ => .null

theorem SortKey.inside_null (path : List String) : SortKey.null.inside path = .null := by
  cases path <;> rfl

theorem SortKey.inside_append (key : SortKey) (path rest : List String) :
    key.inside (path ++ rest) = (key.inside path).inside rest := by
  induction path generalizing key with
  | nil => rfl
  | cons name path ih =>
    cases key with
    | document elements => exact ih _
    | _ => exact (inside_null rest).symm

theorem Bson.lookup_sortElements (elements : List (String × Bson)) (name : String) :
    (sortElements elements).lookup name = (elements.lookup name).map sortKey := by
  induction elements with
  | nil => rfl
  | cons element rest ih =>
    obtain ⟨other, value⟩ := element
    rw [sortElements, List.lookup_cons, List.lookup_cons, ih]
    cases name == other <;> rfl

/-- Only documents have something below them. -/
theorem Bson.inside_sortKey {value : Bson} (h : ∀ document, value ≠ .document document)
    {path : List String} (hne : path ≠ []) : value.sortKey.inside path = .null := by
  obtain ⟨name, rest, rfl⟩ := List.exists_cons_of_ne_nil hne
  cases value with
  | document document => exact absurd rfl (h document)
  | decimal128 number =>
    rw [sortKey]
    cases number.approximate? <;> rfl
  | _ => rfl

theorem Document.sortKey_lookup (document : Document) {path : List String} (hne : path ≠ []) :
    ((document.lookup path).getD .null).sortKey = (Bson.document document).sortKey.inside path := by
  induction path generalizing document with
  | nil => exact absurd rfl hne
  | cons name rest ih =>
    rw [Bson.sortKey, SortKey.inside, Bson.lookup_sortElements]
    by_cases hrest : rest = []
    · subst hrest
      change ((document.get? name).getD .null).sortKey = _
      rw [get?]
      cases List.lookup name document <;> rfl
    · rw [lookup_cons document name hrest, nested?, get?]
      cases List.lookup name document with
      | none => exact (SortKey.inside_null rest).symm
      | some value =>
        change _ = value.sortKey.inside rest
        cases value with
        | document nested => exact ih nested hrest
        | _ => exact (Bson.inside_sortKey (by simp) hrest).symm

/-! ## Equal documents -/

namespace SortField

theorem key_eq_inside (s : SortField) (document : Document) :
    s.key document = (Bson.document document).sortKey.inside (Text.segments s.field) :=
  document.sortKey_lookup (Text.segments_ne_nil s.field)

theorem order_eq_iff (s : SortField) (a b : Document) : s.order a b = .eq ↔ s.key a = s.key b := by
  unfold order
  cases s.direction with
  | ascending => exact SortKey.order_eq_iff
  | descending => exact SortKey.order_eq_iff.trans eq_comm

theorem orderBy_eq_iff (sorts : List SortField) (a b : Document) :
    orderBy sorts a b = .eq ↔ ∀ s ∈ sorts, s.key a = s.key b := by
  induction sorts with
  | nil => simp [orderBy]
  | cons s rest ih => rw [orderBy, Ordering.then_eq_eq, order_eq_iff, ih, List.forall_mem_cons]

/-- The path of the second field begins with that of the first one. -/
def Covers (s t : SortField) : Prop := Text.segments s.field <+: Text.segments t.field

instance (s t : SortField) : Decidable (s.Covers t) := inferInstanceAs (Decidable (_ <+: _))

theorem Covers.key_eq {s t : SortField} (h : s.Covers t) {a b : Document}
    (hkey : s.key a = s.key b) : t.key a = t.key b := by
  obtain ⟨rest, hrest⟩ := h
  simp only [key_eq_inside] at hkey ⊢
  rw [← hrest, SortKey.inside_append, SortKey.inside_append, hkey]

end SortField

/-! ## Documents that differ in one field -/

/-- The document that holds a value at a path and nothing else. -/
def Document.holding (value : Bson) : List String → Document
  | [] => []
  | [name] => [(name, value)]
  | name :: rest => [(name, .document (holding value rest))]

namespace Document

theorem holding_cons (value : Bson) (name : String) {rest : List String} (h : rest ≠ []) :
    holding value (name :: rest) = [(name, .document (holding value rest))] := by
  obtain ⟨next, rest, rfl⟩ := List.exists_cons_of_ne_nil h
  rfl

theorem get?_singleton (name other : String) (value : Bson) :
    get? [(name, value)] other = if other = name then some value else none :=
  get?_cons name other value []

theorem lookup_holding (value : Bson) {path : List String} (hne : path ≠ []) :
    (holding value path).lookup path = some value := by
  induction path with
  | nil => exact absurd rfl hne
  | cons name rest ih =>
    by_cases hrest : rest = []
    · subst hrest
      exact (get?_singleton name name value).trans (if_pos rfl)
    · rw [holding_cons value name hrest, lookup_cons _ _ hrest, nested?, get?_singleton, if_pos rfl]
      exact ih hrest

/-- Nothing lies beside the path, and nothing inside of the value. -/
theorem lookup_holding_of_not_prefix {value : Bson}
    (hvalue : ∀ document, value ≠ .document document) {path other : List String}
    (h : ¬other <+: path) : (holding value path).lookup other = none := by
  induction path generalizing other with
  | nil => exact lookup_empty other
  | cons name rest ih =>
    cases other with
    | nil => rfl
    | cons first tail =>
      rw [List.cons_prefix_cons, not_and] at h
      by_cases hrest : rest = []
      · subst hrest
        by_cases htail : tail = []
        · subst htail
          have hfirst : first ≠ name := fun heq ↦ h heq List.nil_prefix
          exact (get?_singleton name first value).trans (if_neg hfirst)
        · rw [holding, lookup_cons _ _ htail, nested?, get?_singleton]
          split <;> simp_all
      · rw [holding_cons value name hrest]
        by_cases hfirst : first = name
        · have htail : tail ≠ [] := fun heq ↦ h hfirst (heq ▸ List.nil_prefix)
          rw [lookup_cons _ _ htail, nested?, get?_singleton, if_pos hfirst]
          exact ih (h hfirst)
        · have hget : get? [(name, .document (holding value rest))] first = get? [] first :=
            (get?_singleton name first _).trans (if_neg hfirst)
          rw [lookup_congr hget, lookup_empty]

end Document

namespace SortField

theorem key_congr {s t : SortField} (h : s.field = t.field) : s.key = t.key := by
  unfold key
  rw [h]

/-- A field that no earlier one covers decides between some documents. -/
theorem exists_decided {sorts : List SortField} {s : SortField} (h : ∀ t ∈ sorts, ¬t.Covers s) :
    ∃ a b, (∀ t ∈ sorts, t.key a = t.key b) ∧ s.key a ≠ s.key b := by
  let document (truth : Bool) := Document.holding (.boolean truth) (Text.segments s.field)
  have hkey (truth : Bool) : s.key (document truth) = .boolean truth := by
    rw [key, Document.resolve, Document.lookup_holding _ (Text.segments_ne_nil s.field)]
    rfl
  have hother (truth : Bool) : ∀ t ∈ sorts, t.key (document truth) = .null := by
    intro t ht
    rw [key, Document.resolve, Document.lookup_holding_of_not_prefix (by simp) (h t ht)]
    rfl
  refine ⟨document true, document false, fun t ht ↦ ?_, ?_⟩
  · rw [hother true t ht, hother false t ht]
  · simp [hkey]

/-! ## Turned fields -/

theorem order_turned {s t : SortField} (hfield : t.field = s.field)
    (hdirection : t.direction ≠ s.direction) (a b : Document) :
    t.order a b = (s.order a b).swap := by
  rw [order, order, key_congr hfield]
  cases ht : t.direction <;> cases hs : s.direction
  · exact absurd (ht.trans hs.symm) hdirection
  · exact SortKey.order_swap _ _
  · exact SortKey.order_swap _ _
  · exact absurd (ht.trans hs.symm) hdirection

/-- Where documents are equal in a field, nothing changes if it is left out. -/
theorem orderBy_filter {s : SortField} {a b : Document} (h : s.key a = s.key b)
    (sorts : List SortField) :
    orderBy (sorts.filter fun other ↦ other.field ≠ s.field) a b = orderBy sorts a b := by
  induction sorts with
  | nil => rfl
  | cons first rest ih =>
    by_cases hfirst : first.field = s.field
    · have hequal : first.order a b = .eq := (order_eq_iff first a b).2 (key_congr hfirst ▸ h)
      simpa [hfirst, orderBy, hequal] using ih
    · simpa [hfirst, orderBy] using congrArg (first.order a b).then ih

/-- Fields may be replaced by others that decide in the same way where they are looked at. -/
theorem orderBy_map {g : SortField → SortField} {sorts : List SortField} {a b : Document}
    (h : ∀ front s back, sorts = front ++ s :: back → orderBy front a b = .eq →
      (g s).order a b = s.order a b) :
    orderBy (sorts.map g) a b = orderBy sorts a b := by
  induction sorts with
  | nil => rfl
  | cons s rest ih =>
    rw [List.map_cons, orderBy, orderBy, h [] s rest rfl rfl]
    cases hs : s.order a b with
    | lt => rfl
    | gt => rfl
    | eq =>
      apply congrArg (Ordering.then .eq)
      apply ih
      intro front t back hrest hfront
      apply h (s :: front) t back (by rw [hrest]; rfl)
      rw [orderBy, hs, hfront]
      rfl

end SortField

end DocMapping
