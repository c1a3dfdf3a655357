import DocMapping.Proofs.Bson.Paths
import DocMapping.Proofs.Text.Dotted
import DocMapping.Query

/-!
# Parts of Documents

A projection of a document is put together from values that are found in it.  So everything in the
projection is found in the document as well, none of the assignments can fail, and whatever lies at
or below one of the paths is there unchanged.
-/

namespace DocMapping.Document

/-- The document that a stored value is. -/
def ofValue? : Bson → Option Document
  | .document nested => some nested
  | _ => none

/-! ## Above and below a path -/

theorem descend_eq (document : Document) {path : List String} (hne : path ≠ []) :
    document.descend path = (document.lookup path).bind ofValue? := by
  induction path generalizing document with
  | nil => exact absurd rfl hne
  | cons name rest ih =>
    have hnested : document.nested? name = (document.get? name).bind ofValue? := by
      unfold nested?
      cases document.get? name with
      | none => rfl
      | some found => cases found <;> rfl
    by_cases hrest : rest = []
    · subst hrest
      change (document.nested? name).bind some = (document.get? name).bind ofValue?
      rw [hnested, Option.bind_fun_some]
    · rw [lookup_cons document name hrest, descend, Option.bind_assoc]
      congr 1
      funext nested
      exact ih nested hrest

theorem lookup_of_descend {document nested : Document} {path : List String} (hne : path ≠ [])
    (h : document.descend path = some nested) : document.lookup path = some (.document nested) := by
  rw [descend_eq document hne] at h
  obtain ⟨found, hfound, hof⟩ := Option.bind_eq_some_iff.1 h
  cases found with
  | document inner =>
    cases hof
    exact hfound
  | _ => cases hof

/-- What lies below a path is found in what lies at the path. -/
theorem lookup_extend {document other : Document} {path : List String} (hne : path ≠ [])
    (h : document.lookup path = other.lookup path) (rest : List String) :
    document.lookup (path ++ rest) = other.lookup (path ++ rest) := by
  by_cases hrest : rest = []
  · rw [hrest, List.append_nil]
    exact h
  · rw [lookup_append document path hrest, lookup_append other path hrest, descend_eq document hne,
      descend_eq other hne, h]

/-- Above a value that is found there are documents. -/
theorem lookup_above {document : Document} {path rest : List String} {value : Bson}
    (hne : path ≠ []) (hrest : rest ≠ []) (h : document.lookup (path ++ rest) = some value) :
    ∃ nested, document.lookup path = some (.document nested) := by
  rw [lookup_append document path hrest] at h
  obtain ⟨nested, hnested, -⟩ := Option.bind_eq_some_iff.1 h
  exact ⟨nested, lookup_of_descend hne hnested⟩

theorem ne_nil_of_lookup {document : Document} {path : List String} {value : Bson}
    (h : document.lookup path = some value) : path ≠ [] := by
  rintro rfl
  cases h

theorem insert_get? {document : Document} {name : String} {value : Bson}
    (h : document.get? name = some value) : document.insert name value = document := by
  induction document with
  | nil => cases h
  | cons element rest ih =>
    obtain ⟨other, old⟩ := element
    rw [get?_cons] at h
    unfold insert
    split at h
    · next hname =>
      cases h
      rw [if_pos hname, hname]
    · next hname => rw [if_neg hname, ih h]

/-- Assigning the value that is there already changes nothing. -/
theorem assign_self {document : Document} {path : List String} {value : Bson}
    (h : document.lookup path = some value) : document.assign value path = .ok document := by
  induction path generalizing document with
  | nil => cases h
  | cons name rest ih =>
    by_cases hrest : rest = []
    · subst hrest
      exact congrArg Except.ok (insert_get? h)
    · rw [lookup_cons document name hrest] at h
      obtain ⟨nested, hnested, hlookup⟩ := Option.bind_eq_some_iff.1 h
      rw [assign_cons value document name hrest, entered_of_nested? hnested]
      change (nested.assign value rest).map _ = _
      rw [ih hlookup]
      exact congrArg Except.ok (insert_get? (get?_of_nested? hnested))

/-! ## Parts -/

/-- What is found in the part is found in the whole: the same value, or a document again. -/
def IsPart (part whole : Document) : Prop :=
  ∀ path value, part.lookup path = some value → whole.lookup path = some value ∨
    ∃ inner outer, value = .document inner ∧ whole.lookup path = some (.document outer)

namespace IsPart

variable {part whole : Document}

theorem empty (whole : Document) : IsPart [] whole := by
  intro path value h
  rw [lookup_empty] at h
  cases h

theorem lookup_none (h : IsPart part whole) {path : List String}
    (hwhole : whole.lookup path = none) : part.lookup path = none := by
  cases hpart : part.lookup path with
  | none => rfl
  | some value =>
    rcases h path value hpart with hsame | ⟨_, outer, -, houter⟩
    · rw [hwhole] at hsame; cases hsame
    · rw [hwhole] at houter; cases houter

/-- A part lacks every owner that the whole lacks. -/
theorem lookup_null (h : IsPart part whole) {path : List String}
    (hwhole : whole.lookup path = some .null) :
    part.lookup path = none ∨ part.lookup path = some .null := by
  cases hpart : part.lookup path with
  | none => exact .inl rfl
  | some value =>
    rcases h path value hpart with hsame | ⟨_, outer, -, houter⟩
    · exact .inr (hsame.symm.trans hwhole)
    · rw [hwhole] at houter; cases houter

theorem nested (h : IsPart part whole) {name : String} {inner outer : Document}
    (hinner : part.nested? name = some inner) (houter : whole.nested? name = some outer) :
    IsPart inner outer := by
  intro path value hvalue
  have hne := ne_nil_of_lookup hvalue
  have hpart : part.lookup (name :: path) = some value := by
    rw [lookup_cons part name hne, hinner]
    exact hvalue
  have hwhole : whole.lookup (name :: path) = outer.lookup path := by
    rw [lookup_cons whole name hne, houter]
    rfl
  rw [← hwhole]
  exact h (name :: path) value hpart

/-- A value of the whole can be assigned at its path. -/
theorem exists_assign (h : IsPart part whole) {path : List String} {value : Bson}
    (hvalue : whole.lookup path = some value) :
    ∃ changed, part.assign value path = .ok changed := by
  induction path generalizing part whole with
  | nil => cases hvalue
  | cons name rest ih =>
    by_cases hrest : rest = []
    · subst hrest
      exact ⟨_, rfl⟩
    rw [lookup_cons whole name hrest] at hvalue
    obtain ⟨outer, houter, hlookup⟩ := Option.bind_eq_some_iff.1 hvalue
    obtain ⟨entered, hentered, hpart⟩ :
        ∃ entered, part.entered name = .ok entered ∧ IsPart entered outer := by
      have hsingle : part.lookup [name] = part.get? name := rfl
      cases hget : part.get? name with
      | none =>
        refine ⟨[], ?_, empty outer⟩
        unfold Document.entered
        rw [hget]
      | some found =>
        obtain ⟨inner, rfl⟩ : ∃ inner, found = .document inner := by
          rcases h [name] found (hsingle.trans hget) with hsame | ⟨inner, _, hinner, -⟩
          · exact ⟨outer, Option.some.inj (hsame.symm.trans (get?_of_nested? houter))⟩
          · exact ⟨inner, hinner⟩
        have hinner := nested?_of_get? hget
        exact ⟨inner, entered_of_nested? hinner, h.nested hinner houter⟩
    obtain ⟨inner, hinner⟩ := ih hpart hlookup
    refine ⟨part.insert name (.document inner), ?_⟩
    rw [assign_cons value part name hrest, hentered]
    change (entered.assign value rest).map _ = _
    rw [hinner]
    rfl

/-- A part to which a value of the whole is added.  What was unchanged stays so. -/
theorem assign (h : IsPart part whole) {path : List String} {value : Bson} {changed : Document}
    (hvalue : whole.lookup path = some value) (hassign : part.assign value path = .ok changed) :
    IsPart changed whole ∧ changed.lookup path = whole.lookup path ∧
      ∀ other, part.lookup other = whole.lookup other →
        changed.lookup other = whole.lookup other := by
  have hne := ne_nil_of_lookup hvalue
  have hpath : changed.lookup path = whole.lookup path :=
    (lookup_assign hne hassign).trans hvalue.symm
  refine ⟨fun other found hfound ↦ ?_, hpath, fun other hother ↦ ?_⟩
  · by_cases hbelow : path <+: other
    · obtain ⟨rest, rfl⟩ := hbelow
      exact .inl ((lookup_extend hne hpath rest).symm.trans hfound)
    by_cases habove : other <+: path
    · obtain ⟨rest, rfl⟩ := habove
      have hrest : rest ≠ [] := by
        rintro rfl
        rw [List.append_nil] at hbelow
        exact hbelow List.prefix_rfl
      have hother := ne_nil_of_lookup hfound
      obtain ⟨inner, hinner⟩ := lookup_above hother hrest (hpath.trans hvalue)
      obtain ⟨outer, houter⟩ := lookup_above hother hrest hvalue
      exact .inr ⟨inner, outer, Option.some.inj (hfound.symm.trans hinner), houter⟩
    · exact h other found ((lookup_assign_of_apart hassign ⟨hbelow, habove⟩).symm.trans hfound)
  · by_cases hbelow : path <+: other
    · obtain ⟨rest, rfl⟩ := hbelow
      exact lookup_extend hne hpath rest
    by_cases habove : other <+: path
    · obtain ⟨rest, rfl⟩ := habove
      by_cases hnil : other = []
      · rw [hnil]
        rfl
      · have hsame := (lookup_extend hnil hother rest).trans hvalue
        rw [assign_self hsame] at hassign
        cases hassign
        exact hother
    · rw [lookup_assign_of_apart hassign ⟨hbelow, habove⟩]
      exact hother

end IsPart

/-! ## Projections -/

/-- One step of a projection.  Its path is unchanged afterwards, and so is what was unchanged. -/
theorem projectPath_isPart {document projected : Document} (h : IsPart projected document)
    (path : String) :
    IsPart (document.projectPath projected path) document ∧
      (document.projectPath projected path).lookup (Text.segments path) =
        document.lookup (Text.segments path) ∧
      ∀ other, projected.lookup other = document.lookup other →
        (document.projectPath projected path).lookup other = document.lookup other := by
  unfold projectPath
  cases hresolve : document.resolve path with
  | none => exact ⟨h, (h.lookup_none hresolve).trans hresolve.symm, fun _ hother ↦ hother⟩
  | some value =>
    obtain ⟨changed, hassign⟩ := h.exists_assign hresolve
    dsimp only
    rw [hassign]
    exact h.assign hresolve hassign

theorem projectPaths_isPart {document projected : Document} (h : IsPart projected document)
    (paths : List String) :
    IsPart (paths.foldl document.projectPath projected) document ∧
      (∀ path ∈ paths, (paths.foldl document.projectPath projected).lookup (Text.segments path) =
        document.lookup (Text.segments path)) ∧
      ∀ other, projected.lookup other = document.lookup other →
        (paths.foldl document.projectPath projected).lookup other = document.lookup other := by
  induction paths generalizing projected with
  | nil => exact ⟨h, fun _ hmem ↦ (by cases hmem), fun _ hother ↦ hother⟩
  | cons path rest ih =>
    obtain ⟨hpart, hpath, hothers⟩ := projectPath_isPart h path
    obtain ⟨hpart', hpaths, hothers'⟩ := ih hpart
    refine ⟨hpart', List.forall_mem_cons.2 ⟨hothers' _ hpath, hpaths⟩, fun other hother ↦ ?_⟩
    exact hothers' other (hothers other hother)

theorem identifier_isPart (document : Document) :
    IsPart ((document.get? idElement).toList.map fun id ↦ (idElement, id)) document ∧
      Document.lookup ((document.get? idElement).toList.map fun id ↦ (idElement, id)) [idElement] =
        document.lookup [idElement] := by
  change _ ∧ Document.get? _ idElement = document.get? idElement
  cases hid : document.get? idElement with
  | none => exact ⟨.empty document, rfl⟩
  | some id =>
    have hlookup : document.lookup [idElement] = some id := hid
    have hassign : Document.assign id [] [idElement] = .ok [(idElement, id)] := rfl
    exact ⟨((IsPart.empty document).assign hlookup hassign).1, get?_cons ..⟩

theorem project_isPart (document : Document) (paths : List String) :
    IsPart (document.project paths) document :=
  (projectPaths_isPart (identifier_isPart document).1 paths).1

/-- What lies at a path or below it is in the projection. -/
theorem lookup_project (document : Document) {paths : List String} {path : String}
    (h : path ∈ paths) (rest : List String) :
    (document.project paths).lookup (Text.segments path ++ rest) =
      document.lookup (Text.segments path ++ rest) :=
  lookup_extend (Text.segments_ne_nil path)
    ((projectPaths_isPart (identifier_isPart document).1 paths).2.1 path h) rest

/-- What lies at the identifier or below it is in every projection. -/
theorem lookup_project_id (document : Document) (paths rest : List String) :
    (document.project paths).lookup (idElement :: rest) = document.lookup (idElement :: rest) :=
  lookup_extend (List.cons_ne_nil idElement [])
    ((projectPaths_isPart (identifier_isPart document).1 paths).2.2 [idElement]
      (identifier_isPart document).2) rest

end DocMapping.Document
