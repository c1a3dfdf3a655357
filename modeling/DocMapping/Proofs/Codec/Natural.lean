import DocMapping.Codec.Property
import DocMapping.Evaluation
import DocMapping.Filter.Matching
import DocMapping.Proofs.Bson.Order
import DocMapping.Proofs.Outcome
import Mathlib.Tactic.Ring

/-!
# Natural Stored Forms

Texts, truth values and identifiers that are stored in the natural form of their kind.  Such stored
forms compare in filters as the values themselves compare when they are evaluated, whichever of the
two is on the left.
-/

namespace DocMapping

/-! ## Bytes -/

/-- Bytes behind a number that was read so far. -/
theorem Text.foldl_bytesOfNat (count number start : Nat) :
    (bytesOfNat count number).foldl (fun total byte ↦ total * 256 + byte.toNat) start =
      start * 256 ^ count + number % 256 ^ count := by
  induction count generalizing start with
  | zero =>
    rw [Nat.pow_zero, Nat.mul_one, Nat.mod_one]
    rfl
  | succ count ih =>
    have hbyte : (UInt8.ofNat (number / 256 ^ count)).toNat = number / 256 ^ count % 256 :=
      UInt8.toNat_ofNat'
    rw [bytesOfNat, List.foldl_cons, ih, hbyte, Nat.mod_pow_succ, Nat.pow_succ]
    ring

theorem Guid.ofBytes_bytes (id : Guid) : ofBytes id.bytes = id := by
  have hsize : id.value.val < 256 ^ 16 := id.value.isLt
  have hvalue : Text.natOfBytes id.bytes = id.value.val := by
    rw [Text.natOfBytes, bytes, Text.foldl_bytesOfNat, Nat.mod_eq_of_lt hsize, Nat.zero_mul,
      Nat.zero_add]
  unfold ofBytes
  rw [hvalue]
  exact congrArg Guid.mk (Fin.ext (Nat.mod_eq_of_lt id.value.isLt))

theorem Guid.bytes_inj {a b : Guid} : a.bytes = b.bytes ↔ a = b := by
  refine ⟨fun h ↦ ?_, fun h ↦ by rw [h]⟩
  rw [← ofBytes_bytes a, h, ofBytes_bytes]

/-! ## Stored forms -/

/-- A value of a kind and its natural stored form, for the kinds whose members are compared to
constants. -/
inductive IsNaturalForm : ScalarKind → Value → Bson → Prop
  | string (text : String) : IsNaturalForm .string (.string text) (.string text)
  | bool (flag : Bool) : IsNaturalForm .bool (.bool flag) (.boolean flag)
  | guid (id : Guid) : IsNaturalForm .guid (.guid id) (.binary 4 id.bytes)
  | objectId (id : ObjectId) : IsNaturalForm .objectId (.objectId id) (.objectId id)

namespace IsNaturalForm

variable {kind : ScalarKind} {a b : Value} {x y : Bson}

theorem ne_null (h : IsNaturalForm kind a x) : a ≠ .null := by
  cases h <;> simp

theorem structuralEq_comm (ha : IsNaturalForm kind a x) (hb : IsNaturalForm kind b y) :
    a.structuralEq b = b.structuralEq a := by
  cases ha <;> cases hb <;> exact BEq.comm

/-- Stored forms are equal in filters exactly if the values are. -/
theorem matchesValue_eq (ha : IsNaturalForm kind a x) (hb : IsNaturalForm kind b y) :
    x.matchesValue y = a.structuralEq b := by
  rw [Bool.eq_iff_iff]
  cases ha with
  | string text =>
    cases hb with
    | string other =>
      change (compare text other == .eq) = true ↔ (text == other) = true
      rw [Std.compare_beq_iff_eq, beq_iff_eq]
  | bool flag =>
    cases hb with
    | bool other =>
      change (compare flag.toNat other.toNat == .eq) = true ↔ (flag == other) = true
      cases flag <;> cases other <;> decide
  | guid id =>
    cases hb with
    | guid other =>
      change ((compare id.bytes.length other.bytes.length).then
        (SortKey.bytesOrder id.bytes other.bytes) == .eq) = true ↔ (id == other) = true
      rw [beq_iff_eq, beq_iff_eq, Ordering.then_eq_eq]
      constructor
      · intro h
        exact Guid.bytes_inj.1 (SortKey.bytesOrder_eq h.2)
      · rintro rfl
        exact ⟨Std.compare_self, SortKey.bytesOrder_self _⟩
  | objectId id =>
    cases hb with
    | objectId other =>
      change (compare id.value.val other.value.val == .eq) = true ↔ (id == other) = true
      rw [Std.compare_beq_iff_eq, beq_iff_eq]
      constructor
      · intro h
        obtain ⟨value⟩ := id
        obtain ⟨other⟩ := other
        exact congrArg ObjectId.mk (Fin.ext h)
      · rintro rfl
        rfl

end IsNaturalForm

/-- Kinds whose values have an order that their natural stored forms have as well. -/
def ScalarKind.isRanked : ScalarKind → Bool
  | .string | .bool => true
  | _ => false

namespace IsNaturalForm

variable {kind : ScalarKind} {a b : Value} {x y : Bson}

theorem order?_eq (ha : IsNaturalForm kind a x) (hb : IsNaturalForm kind b y)
    (hranked : kind.isRanked = true) : x.sortKey.order? y.sortKey = a.order? b := by
  cases ha <;> cases hranked <;> cases hb <;> rfl

theorem order?_isSome (ha : IsNaturalForm kind a x) (hb : IsNaturalForm kind b y)
    (hranked : kind.isRanked = true) : (a.order? b).isSome = true := by
  cases ha <;> cases hranked <;> cases hb <;> rfl

theorem order?_swap (ha : IsNaturalForm kind a x) (hb : IsNaturalForm kind b y)
    (hranked : kind.isRanked = true) : b.order? a = (a.order? b).map Ordering.swap := by
  cases ha <;> cases hranked <;> cases hb <;> exact congrArg some Std.OrientedCmp.eq_swap

end IsNaturalForm

namespace Property

variable {p : Property} {kind : ScalarKind} {value constant : Value} {stored operand : Bson}

theorem encodeScalar_natural (hkind : p.scalarKind = kind) (hnatural : p.representation = .natural)
    (hconstant : IsNaturalForm kind constant operand) : p.encodeScalar constant = .ok operand := by
  unfold encodeScalar
  cases hconstant <;> rw [hkind, hnatural] <;> rfl

/-- What a property of a kind stores is null or the natural form of a value of the kind. -/
theorem isNaturalForm_of_encodeScalar (hkind : p.scalarKind = kind)
    (hnatural : p.representation = .natural) (hconstant : IsNaturalForm kind constant operand)
    (hvalue : value ≠ .null) (h : p.encodeScalar value = .ok stored) :
    IsNaturalForm kind value stored := by
  unfold encodeScalar at h
  rw [hkind, hnatural] at h
  cases hconstant with
  | string | bool | guid | objectId =>
    cases value <;> cases h
    · exact absurd rfl hvalue
    · constructor

theorem encode_scalar (hkind : p.kind = .scalar kind) (value : Value) :
    p.encode value = p.reporting (p.encodeScalar value) := by
  unfold encode encodeValue
  rw [hkind]

theorem encode_natural (hkind : p.kind = .scalar kind) (hnatural : p.representation = .natural)
    (hconstant : IsNaturalForm kind constant operand) : p.encode constant = .ok operand := by
  have hscalarKind : p.scalarKind = kind := congrArg PropertyKind.scalarKind hkind
  rw [encode_scalar hkind, encodeScalar_natural hscalarKind hnatural hconstant]
  rfl

theorem isNaturalForm_of_encode (hkind : p.kind = .scalar kind)
    (hnatural : p.representation = .natural) (hconstant : IsNaturalForm kind constant operand)
    (hvalue : value ≠ .null) (h : p.encode value = .ok stored) :
    IsNaturalForm kind value stored := by
  have hscalarKind : p.scalarKind = kind := congrArg PropertyKind.scalarKind hkind
  rw [encode_scalar hkind] at h
  exact isNaturalForm_of_encodeScalar hscalarKind hnatural hconstant hvalue
    (Outcome.mapError_eq_ok.1 h)

/-- An item of a collection of texts, which may be null. -/
theorem matchesValue_of_encodeItem (hkind : p.scalarKind = .string)
    (hnatural : p.representation = .natural) {nullable : Bool} {item : Value}
    (h : p.encodeItem nullable item = .ok stored) (text : String) :
    stored.matchesValue (.string text) = item.structuralEq (.string text) := by
  by_cases hnull : item = .null
  · have haccepted : (nullable || !p.scalarKind.isValueType) = true := by
      rw [hkind]
      exact Bool.or_true nullable
    rw [hnull, encodeItem, if_pos haccepted] at h
    cases h
    rw [hnull]
    rfl
  · rw [encodeItem] at h
    · exact (isNaturalForm_of_encodeScalar hkind hnatural (.string text) hnull h).matchesValue_eq
        (.string text)
    · exact hnull

theorem encodeElement_text (hkind : p.scalarKind = .string) (hnatural : p.representation = .natural)
    (text : String) : p.encodeElement (.string text) = .ok (.string text) := by
  rw [encodeElement, encodeScalar_natural hkind hnatural (.string text)]
  rfl

theorem mapM_encodeElement_text (hkind : p.scalarKind = .string)
    (hnatural : p.representation = .natural) (texts : List String) :
    (texts.map Value.string).mapM p.encodeElement = .ok (texts.map Bson.string) := by
  induction texts with
  | nil => rfl
  | cons text rest ih =>
    rw [List.map_cons, List.mapM_cons, encodeElement_text hkind hnatural, ih]
    rfl

end Property

end DocMapping
