import DocMapping.Proofs.Bson.Assignments

/-!
# Assignments in Place

An assignment is carried out in the document itself: on its way to the end of a path it makes the
documents that are missing, before it knows whether it gets there.  It is stopped only by a value on
its way that is neither null nor a document, and has not made anything by then, so the document is
left as it was.  Otherwise the value is at its path, nothing beside the path has changed, and no
element has changed its place among the others.
-/

namespace DocMapping

/-- A stored value that no assignment leads through. -/
def Bson.IsObstacle (found : Bson) : Prop := found ≠ .null ∧ ∀ nested, found ≠ .document nested

namespace Document

variable {value found : Bson} {document changed : Document} {obstacle : Obstacle} {name : String}
  {path rest : List String}

/-! ## Obstacles -/

theorem entered_eq_error_iff : document.entered name = .error obstacle ↔
    obstacle.element = name ∧ document.get? name = some obstacle.value ∧
      obstacle.value.IsObstacle := by
  unfold entered
  cases hget : document.get? name with
  | none => simp
  | some found =>
    have hsome : some found = some obstacle.value ↔ found = obstacle.value :=
      Option.some_inj
    rw [hsome]
    obtain ⟨element, blocked⟩ := obstacle
    cases found with
    | null =>
      refine iff_of_false nofun ?_
      rintro ⟨-, rfl, hnull, -⟩
      exact hnull rfl
    | document nested =>
      refine iff_of_false nofun ?_
      rintro ⟨-, rfl, -, hdocument⟩
      exact hdocument nested rfl
    | _ =>
      constructor
      · rintro ⟨⟩
        exact ⟨rfl, rfl, nofun, nofun⟩
      · rintro ⟨rfl, rfl, -⟩
        rfl

/-- The empty document has nothing that an assignment could meet. -/
theorem exists_assign_empty (value : Bson) (path : List String) :
    ∃ changed, Document.assign value [] path = .ok changed := by
  induction path with
  | nil => exact ⟨[], rfl⟩
  | cons name rest ih =>
    by_cases hrest : rest = []
    · subst hrest
      exact ⟨_, rfl⟩
    · obtain ⟨inner, hinner⟩ := ih
      have hentered : Document.entered [] name = .ok [] := rfl
      refine ⟨Document.insert name (.document inner) [], ?_⟩
      rw [assign_cons value [] name hrest, hentered]
      change (Document.assign value [] rest).map _ = _
      rw [hinner]
      rfl

/-- The steps of an assignment that fails. -/
theorem assign_cons_eq_error_iff (hne : rest ≠ []) :
    document.assign value (name :: rest) = .error obstacle ↔
      document.entered name = .error obstacle ∨
        ∃ nested, document.nested? name = some nested ∧
          nested.assign value rest = .error obstacle := by
  rw [assign_cons value document name hne]
  cases hentered : document.entered name with
  | error other =>
    have hnested (nested : Document) : document.nested? name ≠ some nested := by
      intro h
      rw [entered_of_nested? h] at hentered
      cases hentered
    simp [Except.bind, hnested]
  | ok entered =>
    change (entered.assign value rest).map _ = _ ↔ _
    constructor
    · intro h
      cases hassign : entered.assign value rest with
      | ok inner =>
        rw [hassign] at h
        cases h
      | error other =>
        rw [hassign] at h
        cases h
        -- A document that is only made on the way is empty, and stops nothing.
        rcases nested?_of_entered hentered with hnested | ⟨-, rfl⟩
        · exact .inr ⟨entered, hnested, hassign⟩
        · obtain ⟨inner, hinner⟩ := exists_assign_empty value rest
          cases hinner.symm.trans hassign
    · rintro (h | ⟨nested, hnested, hassign⟩)
      · cases h
      · rw [entered_of_nested? hnested] at hentered
        cases hentered
        rw [hassign]
        rfl

/-- The obstacle of an assignment is found above the end of its path. -/
theorem assign_eq_error_iff : document.assign value path = .error obstacle ↔
    ∃ front rest, rest ≠ [] ∧ path = front ++ obstacle.element :: rest ∧
      document.lookup (front ++ [obstacle.element]) = some obstacle.value ∧
      obstacle.value.IsObstacle := by
  induction path generalizing document with
  | nil =>
    refine iff_of_false nofun ?_
    rintro ⟨front, rest, -, hpath, -⟩
    exact absurd hpath.symm (by simp)
  | cons name tail ih =>
    by_cases htail : tail = []
    · subst htail
      refine iff_of_false nofun ?_
      rintro ⟨front, rest, hrest, hpath, -⟩
      have hlength := congrArg List.length hpath
      have hpos := List.length_pos_iff.2 hrest
      simp only [List.length_cons, List.length_nil, List.length_append] at hlength
      omega
    rw [assign_cons_eq_error_iff htail, entered_eq_error_iff]
    constructor
    · rintro (⟨rfl, hget, hblocks⟩ | ⟨nested, hnested, hassign⟩)
      · exact ⟨[], tail, htail, rfl, hget, hblocks⟩
      · obtain ⟨front, rest, hrest, rfl, hlookup, hblocks⟩ := ih.1 hassign
        refine ⟨name :: front, rest, hrest, rfl, ?_, hblocks⟩
        rw [List.cons_append, lookup_cons document name (by simp), hnested]
        exact hlookup
    · rintro ⟨front, rest, hrest, hpath, hlookup, hblocks⟩
      cases front with
      | nil =>
        cases hpath
        exact .inl ⟨rfl, hlookup, hblocks⟩
      | cons first front =>
        obtain ⟨rfl, rfl⟩ := List.cons.inj hpath
        rw [List.cons_append, lookup_cons document name (by simp)] at hlookup
        obtain ⟨nested, hnested, hlookup⟩ := Option.bind_eq_some_iff.1 hlookup
        exact .inr ⟨nested, hnested, ih.2 ⟨front, rest, hrest, rfl, hlookup, hblocks⟩⟩

/-- An assignment fails exactly if one of the owners on its way cannot be one. -/
theorem exists_assign_error_iff : (∃ obstacle, document.assign value path = .error obstacle) ↔
    ∃ above found, above <+: path ∧ above ≠ path ∧ document.lookup above = some found ∧
      found.IsObstacle := by
  constructor
  · rintro ⟨obstacle, h⟩
    obtain ⟨front, rest, hrest, rfl, hlookup, hblocks⟩ := assign_eq_error_iff.1 h
    refine ⟨front ++ [obstacle.element], obstacle.value, ⟨rest, by simp⟩, ?_, hlookup, hblocks⟩
    intro heq
    exact hrest (by simpa using heq.symm)
  · rintro ⟨above, found, ⟨rest, rfl⟩, hne, hlookup, hblocks⟩
    obtain ⟨front, element, rfl⟩ :=
      (List.eq_nil_or_concat' above).resolve_left (ne_nil_of_lookup hlookup)
    have hrest : rest ≠ [] := by
      rintro rfl
      exact hne (List.append_nil _).symm
    refine ⟨⟨element, found⟩, assign_eq_error_iff.2 ⟨front, rest, hrest, ?_, hlookup, hblocks⟩⟩
    simp

/-! ## Places of elements -/

/-- In the documents that an assignment goes into, elements stay where they are, and a new one comes
last. -/
theorem names_prefix_assign (h : document.assign value path = .ok changed) {level : List String}
    {before : Document} (hbefore : document.descend level = some before)
    (hlevel : ¬path <+: level) :
    ∃ after, changed.descend level = some after ∧ before.names <+: after.names := by
  induction path generalizing document changed level with
  | nil => exact absurd List.nil_prefix hlevel
  | cons name rest ih =>
    cases level with
    | nil =>
      cases hbefore
      obtain ⟨stored, rfl, -⟩ := assign_eq_insert h
      refine ⟨_, rfl, ?_⟩
      rw [names_insert]
      split
      · exact List.prefix_rfl
      · exact List.prefix_append _ _
    | cons first tail =>
      by_cases hfirst : first = name
      · subst hfirst
        rw [List.cons_prefix_cons, not_and] at hlevel
        have hrest : rest ≠ [] := by
          rintro rfl
          exact hlevel rfl List.nil_prefix
        obtain ⟨nested, inner, hentered, hinner, rfl⟩ := assign_cons_ok hrest h
        obtain ⟨found, hfound, hdescend⟩ := Option.bind_eq_some_iff.1 hbefore
        rw [entered_of_nested? hfound] at hentered
        cases hentered
        obtain ⟨after, hafter, hnames⟩ := ih hinner hdescend (hlevel rfl)
        have hget := get?_insert document first first (.document inner)
        rw [if_pos rfl] at hget
        refine ⟨after, ?_, hnames⟩
        rw [descend, nested?_of_get? hget]
        exact hafter
      · obtain ⟨stored, rfl, -⟩ := assign_eq_insert h
        refine ⟨before, ?_, List.prefix_rfl⟩
        rw [descend_congr ((get?_insert document name first stored).trans (if_neg hfirst))]
        exact hbefore

/-! ## Walking -/

/-- A document as a walk along a path leaves it, and the obstacle that the walk has met. -/
structure Walk where
  document : Document
  obstacle : Option Obstacle

namespace Walk

/-- What an assignment leaves if it changes the document all at once, or not at all. -/
def ofOutcome (document : Document) : Except Obstacle Document → Walk
  | .ok changed => ⟨changed, none⟩
  | .error obstacle => ⟨document, some obstacle⟩

end Walk

/-- Puts an empty document into an element that is missing or null.  The second part is what the
element holds then. -/
def makeRoom (document : Document) (name : String) : Document × Bson :=
  match document.get? name with
  | none => (document.insert name (.document []), .document [])
  | some .null => (document.insert name (.document []), .document [])
  | some found => (document, found)

/-- Puts a value at a path, each step changing the document that it has come to. -/
def walk (value : Bson) : Document → List String → Walk
  | document, [] => ⟨document, none⟩
  | document, [name] => ⟨document.insert name value, none⟩
  | document, name :: rest =>
    let (entered, found) := document.makeRoom name
    match found with
    | .document nested =>
      let inner := walk value nested rest
      ⟨entered.insert name (.document inner.document), inner.obstacle⟩
    | other => ⟨entered, some ⟨name, other⟩⟩

theorem walk_cons (value : Bson) (document : Document) (name : String) (hne : rest ≠ []) :
    document.walk value (name :: rest) =
      match (document.makeRoom name).2 with
      | .document nested =>
        let inner := walk value nested rest
        ⟨(document.makeRoom name).1.insert name (.document inner.document), inner.obstacle⟩
      | other => ⟨(document.makeRoom name).1, some ⟨name, other⟩⟩ := by
  obtain ⟨next, rest, rfl⟩ := List.exists_cons_of_ne_nil hne
  rw [walk]
  simp

/-- A walk leaves what an assignment leaves: the room that it has made on its way is never left
behind. -/
theorem walk_eq (value : Bson) (document : Document) (path : List String) :
    document.walk value path = .ofOutcome document (document.assign value path) := by
  induction path generalizing document with
  | nil => rfl
  | cons name rest ih =>
    by_cases hrest : rest = []
    · subst hrest
      rfl
    rw [walk_cons value document name hrest, assign_cons value document name hrest]
    unfold makeRoom entered
    -- Once room has been made the walk cannot be stopped, so the value overwrites the room.
    have hroom : (⟨(document.insert name (.document [])).insert name
        (.document (Document.walk value [] rest).document),
          (Document.walk value [] rest).obstacle⟩ : Walk) =
        .ofOutcome document ((Document.assign value [] rest).map fun inner ↦
          document.insert name (.document inner)) := by
      obtain ⟨inner, hinner⟩ := exists_assign_empty value rest
      rw [ih, hinner]
      exact congrArg (Walk.mk · none) (insert_insert document name _ _)
    cases hget : document.get? name with
    | none => exact hroom
    | some found =>
      cases found with
      | null => exact hroom
      | document nested =>
        change (⟨document.insert name (.document (walk value nested rest).document),
          (walk value nested rest).obstacle⟩ : Walk) = .ofOutcome document
            ((assign value nested rest).map fun inner ↦ document.insert name (.document inner))
        rw [ih]
        cases assign value nested rest with
        | ok inner => rfl
        | error obstacle => exact congrArg (Walk.mk · _) (insert_get? hget)
      | _ => rfl

/-! ## Assigning -/

/-- Assigning is a lawful setter.  It fails exactly if a proper prefix of the path leads to something
that is neither null nor a document, and then leaves the document alone.  Else the value is at the
path, whatever lies neither above nor below it is as before, and the elements of every document on
the way are in the order in which they were. -/
theorem assign_lawful (value : Bson) (document : Document) (path : String) :
    ((∃ obstacle, document.assign value (Text.segments path) = .error obstacle) ↔
      ∃ above found, above <+: Text.segments path ∧ above ≠ Text.segments path ∧
        document.lookup above = some found ∧ found ≠ .null ∧ ∀ nested, found ≠ .document nested) ∧
    (∀ obstacle, document.assign value (Text.segments path) = .error obstacle →
      document.walk value (Text.segments path) = ⟨document, some obstacle⟩) ∧
    ∀ changed, document.assign value (Text.segments path) = .ok changed →
      document.walk value (Text.segments path) = ⟨changed, none⟩ ∧
      changed.resolve path = some value ∧
      (∀ other, ¬Text.segments path <+: other → ¬other <+: Text.segments path →
        changed.lookup other = document.lookup other) ∧
      ∀ level before, ¬Text.segments path <+: level → document.descend level = some before →
        ∃ after, changed.descend level = some after ∧ before.names <+: after.names := by
  refine ⟨exists_assign_error_iff, fun obstacle h ↦ ?_, fun changed h ↦ ⟨?_, ?_, ?_, ?_⟩⟩
  · rw [walk_eq, h]
    rfl
  · rw [walk_eq, h]
    rfl
  · exact lookup_assign (Text.segments_ne_nil path) h
  · intro other hbelow habove
    exact lookup_assign_of_apart h ⟨hbelow, habove⟩
  · intro level before hlevel hbefore
    exact names_prefix_assign h hbefore hlevel

/-! ### A planet without an orbit -/

/-- A planet with some value for its orbit. -/
def saturn (orbit : Bson) : Document :=
  [("name", .string "Saturn"), ("orbit", orbit), ("rings", .int32 7)]

/-- An orbit is made in place of null, but nothing is put into a text. -/
theorem assign_lawful_saturn :
    (saturn .null).assign (.int32 29) (Text.segments "orbit.period") =
        .ok (saturn (.document [("period", .int32 29)])) ∧
      (saturn (.document [("period", .int32 29)])).resolve "orbit.period" = some (.int32 29) ∧
      (saturn (.document [("period", .int32 29)])).lookup ["rings"] =
        (saturn .null).lookup ["rings"] ∧
      (saturn .null).walk (.int32 29) (Text.segments "name.first") =
        ⟨saturn .null, some ⟨"name", .string "Saturn"⟩⟩ := by
  have hperiod : Text.segments "orbit.period" = ["orbit", "period"] := by decide
  have hfirst : Text.segments "name.first" = ["name", "first"] := by decide
  have hassign : (saturn .null).assign (.int32 29) (Text.segments "orbit.period") =
      .ok (saturn (.document [("period", .int32 29)])) := by
    rw [hperiod]
    rfl
  have hblocked : (saturn .null).assign (.int32 29) (Text.segments "name.first") =
      .error ⟨"name", .string "Saturn"⟩ := by
    rw [hfirst]
    rfl
  obtain ⟨-, hvalue, hbeside, -⟩ := (assign_lawful _ _ _).2.2 _ hassign
  refine ⟨hassign, hvalue, hbeside ["rings"] ?_ ?_, (assign_lawful _ _ _).2.1 _ hblocked⟩
  · rw [hperiod]
    decide
  · rw [hperiod]
    decide

end Document

end DocMapping
