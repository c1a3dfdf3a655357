import DocMapping.Bson.Path
import DocMapping.Proofs.Bson.Elements

/-!
# Assignments at Paths

An assignment that succeeds puts its value at its path and leaves everything alone that does not lie
on the way there or below it.  Where the path is taken already it always succeeds, and the elements
of every document on the way keep their names and their order.
-/

namespace DocMapping.Document

/-- Neither path leads to or through the end of the other. -/
def Apart (path other : List String) : Prop := ¬path <+: other ∧ ¬other <+: path

theorem Apart.symm {path other : List String} (h : Apart path other) : Apart other path :=
  ⟨h.2, h.1⟩

theorem apart_cons {name other : String} {path rest : List String} :
    Apart (name :: path) (other :: rest) ↔ (name = other → Apart path rest) := by
  unfold Apart
  rw [List.cons_prefix_cons, List.cons_prefix_cons]
  constructor
  · rintro ⟨hpath, hrest⟩ rfl
    exact ⟨fun h ↦ hpath ⟨rfl, h⟩, fun h ↦ hrest ⟨rfl, h⟩⟩
  · intro h
    exact ⟨fun hpath ↦ (h hpath.1).1 hpath.2, fun hrest ↦ (h hrest.1.symm).2 hrest.2⟩

/-- The segments of the path that an element of an update stands for. -/
def assignedPath (assignment : String × Bson) : List String := Text.segments assignment.1

/-! ## Looking up -/

/-- The document in an element. -/
def nested? (document : Document) (name : String) : Option Document :=
  match document.get? name with
  | some (.document nested) => some nested
  | _ => none

/-- The document at a path of documents. -/
def descend : Document → List String → Option Document
  | document, [] => some document
  | document, name :: rest => (document.nested? name).bind fun nested ↦ descend nested rest

theorem lookup_cons (document : Document) (name : String) {rest : List String} (h : rest ≠ []) :
    document.lookup (name :: rest) =
      (document.nested? name).bind fun nested ↦ nested.lookup rest := by
  obtain ⟨next, rest, rfl⟩ := List.exists_cons_of_ne_nil h
  unfold nested?
  rw [lookup]
  · split <;> simp_all
  · simp

theorem lookup_empty (path : List String) : Document.lookup [] path = none := by
  rcases path with _ | ⟨name, _ | ⟨next, rest⟩⟩ <;> rfl

/-- What lies at a path is found through its first element only. -/
theorem lookup_congr {document other : Document} {name : String}
    (h : document.get? name = other.get? name) (rest : List String) :
    document.lookup (name :: rest) = other.lookup (name :: rest) := by
  cases rest with
  | nil => exact h
  | cons next rest =>
    rw [lookup_cons _ _ (by simp), lookup_cons _ _ (by simp)]
    unfold nested?
    rw [h]

theorem descend_congr {document other : Document} {name : String}
    (h : document.get? name = other.get? name) (rest : List String) :
    document.descend (name :: rest) = other.descend (name :: rest) := by
  unfold descend nested?
  rw [h]

theorem nested?_of_get? {document nested : Document} {name : String}
    (h : document.get? name = some (.document nested)) : document.nested? name = some nested := by
  unfold nested?
  rw [h]

theorem get?_of_nested? {document nested : Document} {name : String}
    (h : document.nested? name = some nested) :
    document.get? name = some (.document nested) := by
  unfold nested? at h
  split at h
  · next hget => rw [hget, Option.some.inj h]
  · cases h

theorem descend_concat (document : Document) (path : List String) (name : String) :
    document.descend (path ++ [name]) =
      (document.descend path).bind fun nested ↦ nested.nested? name := by
  induction path generalizing document with
  | nil =>
    change (document.nested? name).bind some = document.nested? name
    cases document.nested? name <;> rfl
  | cons first path ih =>
    rw [List.cons_append, descend, descend, Option.bind_assoc]
    congr 1
    funext nested
    exact ih nested

/-- Looking up a path goes down to its last document. -/
theorem lookup_append (document : Document) (path : List String) {rest : List String}
    (h : rest ≠ []) :
    document.lookup (path ++ rest) =
      (document.descend path).bind fun nested ↦ nested.lookup rest := by
  induction path generalizing document with
  | nil => rfl
  | cons name path ih =>
    rw [List.cons_append, lookup_cons document name (by simp [h]), descend, Option.bind_assoc]
    congr 1
    funext nested
    exact ih nested

/-! ## Assigning -/

/-- The document that an assignment goes into. -/
def entered (document : Document) (name : String) : Except Obstacle Document :=
  match document.get? name with
  | none => .ok []
  | some .null => .ok []
  | some (.document nested) => .ok nested
  | some other => .error ⟨name, other⟩

theorem assign_cons (value : Bson) (document : Document) (name : String) {rest : List String}
    (h : rest ≠ []) :
    document.assign value (name :: rest) =
      (document.entered name).bind fun nested ↦
        (nested.assign value rest).map fun changed ↦ document.insert name (.document changed) := by
  obtain ⟨next, rest, rfl⟩ := List.exists_cons_of_ne_nil h
  unfold entered
  rw [assign]
  · cases document.get? name with
    | none => rfl
    | some found => cases found <;> rfl
  · simp

theorem entered_of_nested? {document nested : Document} {name : String}
    (h : document.nested? name = some nested) : document.entered name = .ok nested := by
  unfold entered
  rw [get?_of_nested? h]

/-- An assignment that goes into no document begins an empty one. -/
theorem nested?_of_entered {document nested : Document} {name : String}
    (h : document.entered name = .ok nested) :
    document.nested? name = some nested ∨ document.nested? name = none ∧ nested = [] := by
  unfold entered at h
  unfold nested?
  cases hget : document.get? name with
  | none =>
    rw [hget] at h
    exact .inr ⟨rfl, (Except.ok.inj h).symm⟩
  | some found =>
    rw [hget] at h
    cases found with
    | document inner => exact .inl (congrArg some (Except.ok.inj h))
    | null => exact .inr ⟨rfl, (Except.ok.inj h).symm⟩
    | _ => cases h

/-- The steps of an assignment that succeeds. -/
theorem assign_cons_ok {value : Bson} {document changed : Document} {name : String}
    {rest : List String} (hne : rest ≠ []) (h : document.assign value (name :: rest) = .ok changed) :
    ∃ nested inner, document.entered name = .ok nested ∧ nested.assign value rest = .ok inner ∧
      changed = document.insert name (.document inner) := by
  rw [assign_cons value document name hne] at h
  cases hentered : document.entered name with
  | error obstacle =>
    rw [hentered] at h
    cases h
  | ok nested =>
    rw [hentered] at h
    change (nested.assign value rest).map _ = _ at h
    cases hassign : nested.assign value rest with
    | error obstacle =>
      rw [hassign] at h
      cases h
    | ok inner =>
      rw [hassign] at h
      exact ⟨nested, inner, rfl, hassign, (Except.ok.inj h).symm⟩

theorem lookup_assign {value : Bson} {document changed : Document} {path : List String}
    (hne : path ≠ []) (h : document.assign value path = .ok changed) :
    changed.lookup path = some value := by
  induction path generalizing document changed with
  | nil => exact absurd rfl hne
  | cons name rest ih =>
    by_cases hrest : rest = []
    · subst hrest
      cases h
      exact (get?_insert document name name value).trans (if_pos rfl)
    · obtain ⟨nested, inner, -, hinner, rfl⟩ := assign_cons_ok hrest h
      have hget := get?_insert document name name (.document inner)
      rw [if_pos rfl] at hget
      rw [lookup_cons _ _ hrest, nested?_of_get? hget]
      exact ih hrest hinner

theorem lookup_assign_of_apart {value : Bson} {document changed : Document}
    {path other : List String} (h : document.assign value path = .ok changed)
    (hapart : Apart path other) : changed.lookup other = document.lookup other := by
  induction path generalizing document changed other with
  | nil => exact absurd List.nil_prefix hapart.1
  | cons name rest ih =>
    cases other with
    | nil => exact absurd List.nil_prefix hapart.2
    | cons first tail =>
      rw [apart_cons] at hapart
      have hget : ∀ v, name ≠ first →
          (document.insert name v).get? first = document.get? first := by
        intro v hfirst
        rw [get?_insert, if_neg (Ne.symm hfirst)]
      by_cases hrest : rest = []
      · subst hrest
        cases h
        have hfirst : name ≠ first := fun heq ↦ (hapart heq).1 List.nil_prefix
        exact lookup_congr (hget value hfirst) tail
      · obtain ⟨nested, inner, hentered, hinner, rfl⟩ := assign_cons_ok hrest h
        by_cases hfirst : name = first
        · subst hfirst
          have htail : tail ≠ [] := by
            rintro rfl
            exact (hapart rfl).2 List.nil_prefix
          have hsame := ih hinner (hapart rfl)
          have hgot := get?_insert document name name (.document inner)
          rw [if_pos rfl] at hgot
          rw [lookup_cons _ _ htail, lookup_cons _ _ htail, nested?_of_get? hgot]
          rcases nested?_of_entered hentered with hnested | ⟨hnested, rfl⟩
          · rw [hnested]
            exact hsame
          · rw [hnested]
            exact hsame.trans (lookup_empty tail)
        · exact lookup_congr (hget _ hfirst) tail

/-! ## Assigning where something is -/

/-- An element that is found is found in documents. -/
theorem nested?_of_lookup {document : Document} {name : String} {rest : List String} (hne : rest ≠ [])
    (h : (document.lookup (name :: rest)).isSome) :
    ∃ nested, document.nested? name = some nested ∧ (nested.lookup rest).isSome := by
  rw [lookup_cons document name hne] at h
  obtain ⟨value, hvalue⟩ := Option.isSome_iff_exists.1 h
  obtain ⟨nested, hnested, hlookup⟩ := Option.bind_eq_some_iff.1 hvalue
  exact ⟨nested, hnested, by rw [hlookup]; rfl⟩

/-- A path begins with an element of the document. -/
theorem mem_names_of_lookup {document : Document} {name : String} {rest : List String}
    (h : (document.lookup (name :: rest)).isSome) : name ∈ document.names := by
  rw [← get?_isSome]
  by_cases hrest : rest = []
  · subst hrest
    exact h
  · obtain ⟨nested, hnested, -⟩ := nested?_of_lookup hrest h
    rw [get?_of_nested? hnested]
    rfl

theorem assign_of_lookup (value : Bson) {document : Document} {path : List String}
    (h : (document.lookup path).isSome) : ∃ changed, document.assign value path = .ok changed := by
  induction path generalizing document with
  | nil => exact ⟨document, rfl⟩
  | cons name rest ih =>
    by_cases hrest : rest = []
    · subst hrest
      exact ⟨_, rfl⟩
    · obtain ⟨nested, hnested, hlookup⟩ := nested?_of_lookup hrest h
      obtain ⟨inner, hinner⟩ := ih hlookup
      refine ⟨document.insert name (.document inner), ?_⟩
      rw [assign_cons value document name hrest, entered_of_nested? hnested]
      change (nested.assign value rest).map _ = _
      rw [hinner]
      rfl

/-- The names in every document that the path does not lead through stay what they are, and so do
those on its way. -/
theorem names_assign {value : Bson} {document changed : Document} {path other : List String}
    (hlookup : (document.lookup path).isSome) (h : document.assign value path = .ok changed)
    (hother : ¬path <+: other) :
    (changed.descend other).map names = (document.descend other).map names := by
  induction path generalizing document changed other with
  | nil => exact absurd List.nil_prefix hother
  | cons name rest ih =>
    have hname := mem_names_of_lookup hlookup
    have hnames : ∀ v, (document.insert name v).names = document.names := by
      intro v
      rw [names_insert, if_pos hname]
    by_cases hrest : rest = []
    · subst hrest
      cases h
      cases other with
      | nil => exact congrArg some (hnames value)
      | cons first tail =>
        rw [List.cons_prefix_cons] at hother
        have hfirst : first ≠ name := fun heq ↦ hother ⟨heq.symm, List.nil_prefix⟩
        rw [descend_congr ((get?_insert document name first value).trans (if_neg hfirst))]
    · obtain ⟨nested, inner, hentered, hinner, rfl⟩ := assign_cons_ok hrest h
      obtain ⟨found, hfound, hbelow⟩ := nested?_of_lookup hrest hlookup
      rw [entered_of_nested? hfound] at hentered
      cases hentered
      cases other with
      | nil => exact congrArg some (hnames _)
      | cons first tail =>
        by_cases hfirst : first = name
        · subst hfirst
          rw [List.cons_prefix_cons] at hother
          have hsame := ih hbelow hinner (fun htail ↦ hother ⟨rfl, htail⟩)
          have hgot := get?_insert document first first (.document inner)
          rw [if_pos rfl] at hgot
          rw [descend, descend, nested?_of_get? hgot, hfound]
          exact hsame
        · rw [descend_congr ((get?_insert document name first _).trans (if_neg hfirst))]

end DocMapping.Document
