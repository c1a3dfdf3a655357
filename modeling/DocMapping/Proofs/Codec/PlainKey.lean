import DocMapping.Proofs.Bson.Equality
import DocMapping.Proofs.Codec.Key

/-!
# Plain Keys

Keys that are texts, identifiers of objects or identifiers of sixteen bytes, or documents of such
parts.  The order tells all of them apart, whatever the types of the entities: a filter for one plain
key selects no document with a different one, and the store and its filters agree on which keys are
equal.
-/

namespace DocMapping

namespace Bson

/-- The stored form of a text, of an identifier, or of a part that is missing. -/
inductive IsKeyPart : Bson → Prop
  | null : IsKeyPart null
  | string (text : String) : IsKeyPart (string text)
  | objectId (id : ObjectId) : IsKeyPart (objectId id)
  | guid (bytes : List UInt8) : IsKeyPart (binary 4 bytes)

inductive IsPlainKey : Bson → Prop
  | part {key : Bson} (h : key.IsKeyPart) : IsPlainKey key
  | parts {elements : Document} (distinct : elements.Distinct)
      (h : ∀ element ∈ elements, element.2.IsKeyPart) : IsPlainKey (document elements)

variable {a b : Bson}

/-! ## Parts -/

theorem IsKeyPart.of_sortKey_eq (ha : a.IsKeyPart) (hb : b.IsKeyPart)
    (h : a.sortKey = b.sortKey) : a = b := by
  cases ha <;> cases hb <;> simp_all [sortKey]

theorem IsKeyPart.eq_iff (ha : a.IsKeyPart) (hb : b.IsKeyPart) : a.eq b = true ↔ a = b := by
  cases ha <;> cases hb <;> simp [eq]

theorem IsKeyPart.isOrdered (h : a.IsKeyPart) : a.IsOrdered := by
  cases h <;> simp [IsOrdered, sortKey]

theorem HasForm.isKeyPart {form : StoredForm} (h : a.HasForm form)
    (hform : form = .objectId ∨ form = .string ∨ form = .binary 4) : a.IsKeyPart := by
  rcases h with rfl | h
  · exact .null
  cases a with
  | string text => exact .string text
  | objectId id => exact .objectId id
  | binary subtype bytes =>
    cases h
    rcases hform with hform | hform | hform <;> cases hform
    exact .guid bytes
  | decimal128 =>
    rw [form?] at h
    split at h <;> cases h
    simp at hform
  | _ => cases h <;> simp at hform

theorem sortElements_inj {elements others : Document}
    (helements : ∀ element ∈ elements, element.2.IsKeyPart)
    (hothers : ∀ element ∈ others, element.2.IsKeyPart)
    (h : sortElements elements = sortElements others) : elements = others := by
  induction elements generalizing others with
  | nil =>
    cases others with
    | nil => rfl
    | cons => simp [sortElements] at h
  | cons element rest ih =>
    cases others with
    | nil => simp [sortElements] at h
    | cons other tail =>
      obtain ⟨hfirst, hrest⟩ := List.forall_mem_cons.1 helements
      obtain ⟨hother, htail⟩ := List.forall_mem_cons.1 hothers
      rw [sortElements, sortElements, List.cons.injEq, Prod.mk.injEq] at h
      obtain ⟨⟨hname, hvalue⟩, hremaining⟩ := h
      rw [ih hrest htail hremaining, Prod.ext hname (hfirst.of_sortKey_eq hother hvalue)]

/-! ## Whole keys -/

theorem IsPlainKey.isOrdered (h : a.IsPlainKey) : a.IsOrdered := by
  cases h with
  | part h => exact h.isOrdered
  | parts => simp [IsOrdered, sortKey]

theorem IsPlainKey.of_sortKey_eq (ha : a.IsPlainKey) (hb : b.IsPlainKey)
    (h : a.sortKey = b.sortKey) : a = b := by
  cases ha with
  | part ha =>
    cases hb with
    | part hb => exact ha.of_sortKey_eq hb h
    | parts => cases ha <;> simp [sortKey] at h
  | parts _ ha =>
    cases hb with
    | part hb => cases hb <;> simp [sortKey] at h
    | parts _ hb =>
      rw [sortKey, sortKey, SortKey.document.injEq] at h
      rw [sortElements_inj ha hb h]

theorem IsPlainKey.eq_self (h : a.IsPlainKey) : a.eq a = true := by
  cases h with
  | part h => exact (h.eq_iff h).2 rfl
  | parts hdistinct h =>
    rw [eq, Bool.and_eq_true, beq_iff_eq, eqElements_iff_lookup]
    refine ⟨rfl, fun element helement ↦ ⟨element.2, hdistinct.get? helement, ?_⟩⟩
    exact ((h element helement).eq_iff (h element helement)).2 rfl

theorem IsPlainKey.eq_symm (ha : a.IsPlainKey) (hb : b.IsPlainKey) (h : a.eq b = true) :
    b.eq a = true := by
  cases ha with
  | part ha =>
    cases hb with
    | part hb =>
      rw [(ha.eq_iff hb).1 h]
      exact (hb.eq_iff hb).2 rfl
    | parts => cases ha <;> simp [eq] at h
  | @parts elements hdistinct ha =>
    cases hb with
    | part hb => cases hb <;> simp [eq] at h
    | @parts others hothers hb =>
      rw [eq, Bool.and_eq_true, beq_iff_eq, eqElements_iff_lookup] at h ⊢
      obtain ⟨hlength, hequal⟩ := h
      refine ⟨hlength.symm, ?_⟩
      refine Association.exists_lookup_of_length_eq (r := fun x y ↦ y.eq x = true) hdistinct hothers
        hlength fun element helement ↦ ?_
      obtain ⟨other, hother, hvalue⟩ := hequal element helement
      have hpart := hb _ (Association.mem_of_lookup hother)
      rw [(ha element helement).eq_iff hpart] at hvalue
      exact ⟨other, hother, by rw [hvalue]; exact (hpart.eq_iff hpart).2 rfl⟩

/-- Which of two keys comes first does not matter. -/
theorem IsPlainKey.eq_comm (ha : a.IsPlainKey) (hb : b.IsPlainKey) : a.eq b = b.eq a :=
  Bool.eq_iff_iff.2 ⟨ha.eq_symm hb, hb.eq_symm ha⟩

end Bson

/-! ## Keys of entities -/

namespace Property

/-- The property holds identifiers or texts. -/
def IsPlain (p : Property) : Prop :=
  p.scalarKind = .objectId ∨ p.scalarKind = .guid ∨ p.scalarKind = .string

theorem storedForm_of_isPlain (p : Property) (h : p.IsPlain) :
    p.storedForm = .objectId ∨ p.storedForm = .string ∨ p.storedForm = .binary 4 := by
  unfold storedForm
  rcases h with hkind | hkind | hkind <;> rw [hkind] <;> cases p.representation <;> simp

theorem isKeyPart_encode {p : Property} (hscalar : p.isCollection = false) (hplain : p.IsPlain)
    {value : Value} {stored : Bson} (h : p.encode value = .ok stored) : stored.IsKeyPart :=
  (hasForm_encode hscalar h).isKeyPart (p.storedForm_of_isPlain hplain)

end Property

namespace EntityType

variable {t : EntityType}

theorem WellKeyed.isPlainKey (h : t.WellKeyed) (hroot : t.isOwned = false)
    (hplain : ∀ p ∈ t.keys, p.IsPlain) {e : Entity} {key : Bson} (hkey : t.keyValue e = .ok key) :
    key.IsPlainKey := by
  cases hcomposite : t.hasCompositeKey with
  | true =>
    obtain ⟨elements, rfl, helements⟩ := keyElements_composite hcomposite hkey
    refine .parts (Document.distinct_ofList elements) fun element hmem ↦ ?_
    obtain ⟨p, hp, value, hvalue, rfl⟩ :=
      Outcome.exists_left helements (Document.mem_ofList hmem)
    exact Property.isKeyPart_encode (h.scalar p hp) (hplain p hp) hvalue
  | false =>
    obtain ⟨p, hp⟩ := List.exists_mem_of_ne_nil _ (keys_ne_nil_of_keyValue hkey)
    rw [keyValue_single hroot hcomposite hp] at hkey
    exact .part (Property.isKeyPart_encode (h.scalar p hp) (hplain p hp) hkey)

end EntityType

end DocMapping
