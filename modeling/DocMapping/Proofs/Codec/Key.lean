import DocMapping.Change.ChangeSet
import DocMapping.Filter.Matching
import DocMapping.Proofs.Bson.Exact
import DocMapping.Proofs.Codec.Document

/-!
# Filters by Key

A document is looked for by the key under `_id`.  The filter for an entity selects the documents
whose key the order sees the same of, and the order compares numbers as doubles.  Keys that doubles
hold exactly, or that are no numbers at all, are therefore never confused; whole numbers beyond
`2 ^ 53` are.
-/

namespace DocMapping

/-- A document matches the elements that its fields equal. -/
theorem Filter.holds_matching {document elements : Document} :
    (Filter.matching elements).holds document = true ↔
      ∀ e ∈ elements, FieldOperator.equalsField (document.resolve e.1) e.2 = true := by
  unfold matching holds
  induction elements with
  | nil => simp [allHold]
  | cons e rest ih =>
    rw [List.map_cons, allHold, Bool.and_eq_true, ih, List.forall_mem_cons]
    rfl

namespace EntityType

variable {t : EntityType}

theorem resolve_idElement (document : Document) :
    document.resolve idElement = document.get? idElement := by
  rw [Document.resolve, Text.segments_of_isSegment isSegment_idElement]
  rfl

/-! ## Keys -/

theorem isOrdered_keyValue (hroot : t.isOwned = false) {e : Entity} {key : Bson}
    (h : t.keyValue e = .ok key) : key.IsOrdered := by
  cases hcomposite : t.hasCompositeKey with
  | true =>
    obtain ⟨elements, rfl, -⟩ := keyElements_composite hcomposite h
    simp [Bson.IsOrdered, Bson.sortKey]
  | false =>
    obtain ⟨p, hp⟩ := List.exists_mem_of_ne_nil _ (keys_ne_nil_of_keyValue h)
    rw [keyValue_single hroot hcomposite hp] at h
    exact Property.isOrdered_encode h

/-- The keys of all entities of a type are stored in the same form. -/
theorem WellKeyed.sameForm_keyValue (h : t.WellKeyed) (hroot : t.isOwned = false) {a b : Entity}
    {key other : Bson} (hkey : t.keyValue a = .ok key) (hother : t.keyValue b = .ok other) :
    key.SameForm other := by
  cases hcomposite : t.hasCompositeKey with
  | true =>
    obtain ⟨elements, rfl, helements⟩ := keyElements_composite hcomposite hkey
    obtain ⟨others, rfl, hothers⟩ := keyElements_composite hcomposite hother
    refine .document (Document.Paired.ofList ?_) (Document.distinct_ofList others)
    refine (Outcome.forall₂_results helements hothers).imp ?_
    rintro _ _ ⟨p, hp, ⟨value, hvalue, rfl⟩, ⟨second, hsecond, rfl⟩⟩
    have hscalar := h.scalar p hp
    exact ⟨rfl, p.storedForm, Property.hasForm_encode hscalar hvalue,
      Property.hasForm_encode hscalar hsecond⟩
  | false =>
    obtain ⟨p, hp⟩ := List.exists_mem_of_ne_nil _ (keys_ne_nil_of_keyValue hkey)
    rw [keyValue_single hroot hcomposite hp] at hkey hother
    have hscalar := h.scalar p hp
    exact .scalar p.storedForm (Property.hasForm_encode hscalar hkey)
      (Property.hasForm_encode hscalar hother)

/-- Keys without parts that are stored as wide, binary or decimal numbers are exact. -/
theorem WellKeyed.isExact_keyValue (h : t.WellKeyed) (hroot : t.isOwned = false)
    (hforms : ∀ p ∈ t.keys, p.storedForm.isExact = true) {e : Entity} {key : Bson}
    (hkey : t.keyValue e = .ok key) : key.IsExact := by
  cases hcomposite : t.hasCompositeKey with
  | true =>
    obtain ⟨elements, rfl, helements⟩ := keyElements_composite hcomposite hkey
    intro element hmem
    obtain ⟨p, hp, value, hvalue, rfl⟩ :=
      Outcome.exists_left helements (Document.mem_ofList hmem)
    exact (Property.hasForm_encode (h.scalar p hp) hvalue).isExactScalar (hforms p hp)
  | false =>
    obtain ⟨p, hp⟩ := List.exists_mem_of_ne_nil _ (keys_ne_nil_of_keyValue hkey)
    rw [keyValue_single hroot hcomposite hp] at hkey
    have hform := Property.hasForm_encode (h.scalar p hp) hkey
    exact hform.isExact_iff.2 (hform.isExactScalar (hforms p hp))

/-! ## Filters -/

theorem keyFilter_eq {e : Entity} {key : Bson} (h : t.keyValue e = .ok key) :
    t.keyFilter false e = .ok [(idElement, key)] := by
  unfold keyFilter
  rw [h]
  rfl

/-- The filter for a key selects the documents with the same key, as far as the order tells. -/
theorem Identified.holds_key (h : t.Identified) (hroot : t.isOwned = false) {e : Entity}
    {document : Document} (hdocument : t.encode e = .ok document) {other : Bson}
    (hother : t.keyValue e = .ok other) (key : Bson) :
    (Filter.matching [(idElement, key)]).holds document = true ↔ key.sortKey = other.sortKey := by
  obtain ⟨stored, hstored, hget⟩ := (h.encode_names hdocument).2.2 hroot
  cases hstored.symm.trans hother
  rw [Filter.holds_matching, List.forall_mem_singleton, resolve_idElement, hget]
  change other.matchesValue key = true ↔ _
  rw [Bson.matchesValue_iff, and_iff_left (isOrdered_keyValue hroot hother), eq_comm]

/-- The filter for an entity can be built and selects exactly the documents with a key that the
order sees the same of.  If all numbers in both keys are held exactly, or no part of the key is stored
as a wide, binary or decimal number, these are the documents with an equal key. -/
theorem keyFilter_selects {m : ModelDeclaration} {model : Model} (hmodel : m.build = .ok model)
    (ht : t ∈ model.entities) (hroot : t.isOwned = false) (hid : t.KeyHasId) {a b : Entity}
    {first second : Document} (hfirst : t.encode a = .ok first)
    (hsecond : t.encode b = .ok second) :
    ∃ key other elements, t.keyValue a = .ok key ∧ t.keyValue b = .ok other ∧
      t.keyFilter false a = .ok elements ∧
      ((Filter.matching elements).holds second = true ↔ key.sortKey = other.sortKey) ∧
      (key.IsExact → other.IsExact →
        ((Filter.matching elements).holds second = true ↔ key.eq other = true)) ∧
      ((∀ p ∈ t.keys, p.storedForm.isExact = true) →
        ((Filter.matching elements).holds second = true ↔ key.eq other = true)) := by
  have h : t.Identified := ⟨ModelDeclaration.wellFormed_of_build hmodel t ht, fun _ ↦ hid⟩
  have hkeyed := ModelDeclaration.wellKeyed_of_build hmodel t ht
  obtain ⟨key, hkey, -⟩ := (h.encode_names hfirst).2.2 hroot
  obtain ⟨other, hother, -⟩ := (h.encode_names hsecond).2.2 hroot
  have hholds := h.holds_key hroot hsecond hother key
  have hexact : key.IsExact → other.IsExact →
      ((Filter.matching [(idElement, key)]).holds second = true ↔ key.eq other = true) :=
    fun ha hb ↦ hholds.trans ((hkeyed.sameForm_keyValue hroot hkey hother).sortKey_eq_iff ha hb)
  exact ⟨key, other, [(idElement, key)], hkey, hother, keyFilter_eq hkey, hholds, hexact,
    fun hforms ↦ hexact (hkeyed.isExact_keyValue hroot hforms hkey)
      (hkeyed.isExact_keyValue hroot hforms hother)⟩

/-! ## Numbers as keys -/

/-- A property with every choice at its default. -/
def declared (name : String) (kind : ScalarKind) : PropertyDeclaration :=
  ⟨name, .scalar kind, none, false, .natural, .utc, false, false, .never, false, .eastern⟩

/-- Pages with numbers as keys. -/
def pages : ModelDeclaration :=
  ⟨.asDeclared, [⟨"Page", false, none, ["Id"],
    [declared "Id" .int64, declared "Text" .string], [], none⟩]⟩

def page : EntityType :=
  ⟨"Page", some "Page",
    [{ Property.plain "Id" (.scalar .int64) with element := idElement },
      Property.plain "Text" (.scalar .string)],
    [{ Property.plain "Id" (.scalar .int64) with element := idElement }], [], none⟩

/-- An entity with a key and a text. -/
def written (type : String) (key : Value) (text : String) : Entity :=
  ⟨type, [("Id", key), ("Text", .string text)]⟩

/-- Issues of a journal, which a volume and a number in it tell apart. -/
def journal : ModelDeclaration :=
  ⟨.asDeclared, [⟨"Issue", false, none, ["Volume", "Number"],
    [declared "Volume" .int32, declared "Number" .string, declared "Title" .string], [], none⟩]⟩

def issue : EntityType :=
  ⟨"Issue", some "Issue",
    [Property.plain "Volume" (.scalar .int32), Property.plain "Number" (.scalar .string),
      Property.plain "Title" (.scalar .string)],
    [Property.plain "Volume" (.scalar .int32), Property.plain "Number" (.scalar .string)], [], none⟩

def issued (volume : Int32) (number title : String) : Entity :=
  ⟨"Issue", [("Number", .string number), ("Title", .string title), ("Volume", .int32 volume)]⟩

theorem keyFilter_selects_issue :
    journal.build = .ok ⟨[issue]⟩ ∧ issue.KeyHasId ∧
      ∃ elements revised next, issue.keyFilter false (issued 3 "b" "Draft") = .ok elements ∧
        issue.encode (issued 3 "b" "Final") = .ok revised ∧
        issue.encode (issued 4 "b" "Draft") = .ok next ∧
        (Filter.matching elements).holds revised = true ∧
        ¬(Filter.matching elements).holds next = true := by
  have hid : issue.KeyHasId := fun h ↦ absurd h (by decide)
  have hforms : ∀ p ∈ issue.keys, p.storedForm.isExact = true := by decide
  have hbuild : journal.build = .ok ⟨[issue]⟩ := rfl
  obtain ⟨_, _, elements, hkey, hrevised, helements, -, -, hsame⟩ :=
    keyFilter_selects hbuild List.mem_cons_self rfl hid (a := issued 3 "b" "Draft")
      (b := issued 3 "b" "Final") rfl rfl
  obtain ⟨_, _, _, hagain, hnext, hsecond, -, -, hother⟩ :=
    keyFilter_selects hbuild List.mem_cons_self rfl hid (a := issued 3 "b" "Draft")
      (b := issued 4 "b" "Draft") rfl rfl
  cases hsecond.symm.trans helements
  cases hkey
  cases hrevised
  cases hagain
  cases hnext
  refine ⟨hbuild, hid, elements, _, _, helements, rfl, rfl, (hsame hforms).2 (by decide), ?_⟩
  rw [hother hforms]
  decide

/-- The filter for the page with the number `2 ^ 53` also selects the page with the next number. -/
theorem keyFilter_confuses_pages :
    pages.build = .ok ⟨[page]⟩ ∧ page.isOwned = false ∧ page.KeyHasId ∧
      ∃ key other elements first second,
        page.encode (written "Page" (.int64 9007199254740992) "first") = .ok first ∧
        page.encode (written "Page" (.int64 9007199254740993) "second") = .ok second ∧
        page.keyValue (written "Page" (.int64 9007199254740992) "first") = .ok key ∧
        page.keyValue (written "Page" (.int64 9007199254740993) "second") = .ok other ∧
        key.eq other = false ∧
        page.keyFilter false (written "Page" (.int64 9007199254740992) "first") = .ok elements ∧
        (Filter.matching elements).holds second = true := by
  have hid : page.KeyHasId := by simp [KeyHasId, page]
  refine ⟨rfl, rfl, hid, _, _, _, _, _, rfl, rfl, rfl, rfl, rfl, rfl, ?_⟩
  decide +kernel

end EntityType

end DocMapping
