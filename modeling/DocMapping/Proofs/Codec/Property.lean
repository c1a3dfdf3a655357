import DocMapping.Codec.Property
import DocMapping.Proofs.Bson.Order
import DocMapping.Proofs.Outcome

/-!
# Stored Forms of Properties

What conversions of properties can result in.  A property that holds a scalar stores all its values
in one form, which its kind and its representation decide, or as null.  All forms have an order, so
that a stored value is found again by a filter that asks for it.
-/

namespace DocMapping

namespace Decimal128

theorem combination_ofDecimal (d : Decimal) : (ofDecimal d).combination = 12 := by
  have hcoefficient := d.coefficient.isLt
  have hscale := d.scale.isLt
  unfold combination ofDecimal bias
  simp only [val_lowBits]
  split <;> omega

theorem isNaN_ofDecimal (d : Decimal) : (ofDecimal d).isNaN = false := by
  simp [isNaN, combination_ofDecimal]

theorem approximate?_isSome {d : Decimal128} (h : d.isNaN = false) : d.approximate?.isSome := by
  unfold approximate?
  cases d.isInfinite <;> cases d.isLargeForm <;> simp [h]

end Decimal128

/-! ## Forms -/

/-- The types of stored values that scalars are stored as. -/
inductive StoredForm where
  | boolean
  | string
  | int32
  | int64
  | double
  | decimal128
  | binary (subtype : UInt8)
  | objectId
  | dateTime
deriving DecidableEq

namespace Bson

theorem isOrdered_decimal128 {d : Decimal128} (h : d.isNaN = false) : (decimal128 d).IsOrdered := by
  obtain ⟨number, hnumber⟩ := Option.isSome_iff_exists.1 (Decimal128.approximate?_isSome h)
  unfold IsOrdered sortKey
  rw [hnumber]
  simp

/-- The form of a stored scalar; a decimal that is not a number has none. -/
def form? : Bson → Option StoredForm
  | boolean _ => some .boolean
  | string _ => some .string
  | int32 _ => some .int32
  | int64 _ => some .int64
  | double _ => some .double
  | decimal128 value => if value.isNaN then none else some .decimal128
  | binary subtype _ => some (.binary subtype)
  | objectId _ => some .objectId
  | dateTime _ => some .dateTime
  | _ => none

/-- The value is null or of the form. -/
def HasForm (form : StoredForm) (value : Bson) : Prop := value = .null ∨ value.form? = some form

theorem HasForm.isOrdered {form : StoredForm} {value : Bson} (h : value.HasForm form) :
    value.IsOrdered := by
  rcases h with rfl | h
  · simp [IsOrdered, sortKey]
  · cases value with
    | decimal128 number =>
      refine isOrdered_decimal128 (Bool.eq_false_iff.2 fun hnan ↦ ?_)
      rw [form?, if_pos hnan] at h
      cases h
    | boolean | string | int32 | int64 | double | binary | objectId | dateTime =>
      simp [IsOrdered, sortKey]
    | _ => cases h

end Bson

/-- The form of stored numbers of a sort. -/
def NumberForm.stored : NumberForm → StoredForm
  | int32 => .int32
  | int64 => .int64
  | double => .double
  | decimal => .decimal128

theorem Numeral.form?_toBson {permissions : Permissions} {n : Numeral} {form : NumberForm}
    {stored : Bson} (h : n.toBson permissions form = .ok stored) :
    stored.form? = some form.stored := by
  cases form with
  | decimal =>
    unfold toBson at h
    obtain ⟨number, -, rfl⟩ := Outcome.map_eq_ok.1 h
    rw [Bson.form?, Decimal128.isNaN_ofDecimal]
    rfl
  | int32 | int64 | double =>
    unfold toBson at h
    obtain ⟨number, -, rfl⟩ := Outcome.map_eq_ok.1 h
    rfl

namespace Property

/-- The form in which a property stores a scalar. -/
def storedForm (p : Property) : StoredForm :=
  match p.scalarKind, p.representation with
  | .bytes, _ => .binary 0
  | .string, .objectId => .objectId
  | .string, _ => .string
  | _, .string => .string
  | .guid, _ => .binary 4
  | .objectId, _ => .objectId
  | .date, _ => .dateTime
  | .time, _ => .int64
  | .bool, .int32 => .int32
  | .bool, .int64 => .int64
  | .bool, _ => .boolean
  | .enum _, .int64 => .int64
  | .enum _, _ => .int32
  | .dateTime, .int64 => .int64
  | .dateTime, _ => .dateTime
  | kind, representation => (representation.numberForm?.getD kind.numberForm).stored

variable {p : Property} {value : Value} {stored : Bson}

theorem form?_encodeBool (hkind : p.scalarKind = .bool) (flag : Bool) :
    (encodeBool p.representation flag).form? = some p.storedForm := by
  unfold storedForm
  rw [hkind]
  cases p.representation <;> rfl

theorem form?_encodeNumber {number : Numeral} (hkind : p.scalarKind = .int32 ∨
      p.scalarKind = .int64 ∨ p.scalarKind = .double ∨ p.scalarKind = .decimal)
    (h : p.encodeNumber number = .ok stored) : stored.form? = some p.storedForm := by
  unfold encodeNumber at h
  unfold storedForm
  split at h
  · next htext =>
    cases h
    rw [htext]
    rcases hkind with hkind | hkind | hkind | hkind <;> rw [hkind] <;> rfl
  · next htext =>
    rw [Numeral.form?_toBson h]
    cases hrepresentation : p.representation with
    | string => exact absurd hrepresentation htext
    | _ => rcases hkind with hkind | hkind | hkind | hkind <;> rw [hkind]

theorem form?_encodeEnum {type : EnumType} {member : Int64} (hkind : p.scalarKind = .enum type)
    (h : p.encodeEnum type member = .ok stored) : stored.form? = some p.storedForm := by
  unfold encodeEnum at h
  unfold storedForm
  rw [hkind]
  split at h
  · next htext =>
    rw [htext]
    split at h <;> cases h
    rfl
  · next hwide =>
    cases h
    rw [hwide]
    rfl
  · next htext hwide =>
    rw [Numeral.form?_toBson h]
    cases hrepresentation : p.representation with
    | string => exact absurd hrepresentation htext
    | int64 => exact absurd hrepresentation hwide
    | _ => rfl

theorem form?_encodeString {text : String} (hkind : p.scalarKind = .string)
    (h : encodeString p.representation text = .ok stored) : stored.form? = some p.storedForm := by
  unfold encodeString at h
  unfold storedForm
  rw [hkind]
  split at h
  · next hid =>
    rw [hid]
    split at h <;> cases h
    rfl
  · next hid =>
    cases h
    cases hrepresentation : p.representation with
    | objectId => exact absurd hrepresentation hid
    | _ => rfl

theorem form?_encodeDateTime {d : DateTime} (hkind : p.scalarKind = .dateTime)
    (h : p.encodeDateTime d = .ok stored) : stored.form? = some p.storedForm := by
  obtain ⟨universal, -, rfl⟩ := Outcome.map_eq_ok.1 h
  unfold storedForm
  rw [hkind]
  cases p.representation <;> rfl

theorem form?_encodeTime {t : Time} (hkind : p.scalarKind = .time)
    (h : p.encodeTime t = .ok stored) : stored.form? = some p.storedForm := by
  unfold encodeTime at h
  unfold storedForm
  rw [hkind]
  split at h
  · next htext =>
    cases h
    rw [htext]
    rfl
  · next htext =>
    obtain ⟨ticks, -, rfl⟩ := Outcome.map_eq_ok.1 h
    cases hrepresentation : p.representation with
    | string => exact absurd hrepresentation htext
    | _ => rfl

/-- Kinds that are stored as texts on request, and otherwise in one form. -/
theorem form?_text {text other : Bson}
    (h : (if p.representation = .string then .ok text else .ok other :
      Except ConversionFault Bson) = .ok stored)
    (htext : p.representation = .string → text.form? = some p.storedForm)
    (hother : p.representation ≠ .string → other.form? = some p.storedForm) :
    stored.form? = some p.storedForm := by
  split at h <;> cases h
  · next hchosen => exact htext hchosen
  · next hchosen => exact hother hchosen

/-- Scalars other than null are stored in the form of their property. -/
theorem form?_encodeScalar (hvalue : value ≠ .null) (h : p.encodeScalar value = .ok stored) :
    stored.form? = some p.storedForm := by
  unfold encodeScalar at h
  dsimp only at h
  split at h
  case h_1 => exact absurd rfl hvalue
  case h_2 hkind =>
    cases h
    exact form?_encodeBool hkind _
  case h_3 hkind _ | h_4 hkind _ | h_5 hkind _ | h_6 hkind _ =>
    split at h
    · exact form?_encodeNumber (by simp [hkind]) h
    · cases h
  case h_7 hkind | h_8 hkind | h_9 hkind => exact form?_encodeEnum hkind h
  case h_10 hkind => exact form?_encodeString hkind h
  case h_11 hkind | h_12 hkind | h_15 hkind =>
    refine form?_text h (fun htext ↦ ?_) fun htext ↦ ?_
    · rw [storedForm, hkind, htext]
      rfl
    · rw [storedForm, hkind]
      cases hrepresentation : p.representation with
      | string => exact absurd hrepresentation htext
      | _ => rfl
  case h_13 hkind =>
    cases h
    rw [storedForm, hkind]
    rfl
  case h_14 hkind => exact form?_encodeDateTime hkind h
  case h_16 hkind => exact form?_encodeTime hkind h
  case h_17 => cases h

/-- Scalars are stored in the form of their property or as null. -/
theorem hasForm_encodeScalar (h : p.encodeScalar value = .ok stored) :
    stored.HasForm p.storedForm := by
  by_cases hvalue : value = .null
  · rw [hvalue] at h
    unfold encodeScalar at h
    cases h
    exact .inl rfl
  · exact .inr (form?_encodeScalar hvalue h)

/-- A property that holds a scalar stores it in its form or as null. -/
theorem hasForm_encode (hscalar : p.isCollection = false) (h : p.encode value = .ok stored) :
    stored.HasForm p.storedForm := by
  have hvalue : p.encodeValue value = .ok stored := Outcome.mapError_eq_ok.1 h
  unfold encodeValue at hvalue
  split at hvalue
  · exact hasForm_encodeScalar hvalue
  · next hkind =>
    rw [isCollection, hkind] at hscalar
    cases hscalar

theorem isOrdered_encodeValue (h : p.encodeValue value = .ok stored) : stored.IsOrdered := by
  unfold encodeValue at h
  split at h
  · exact (hasForm_encodeScalar h).isOrdered
  · split at h
    · cases h
      simp [Bson.IsOrdered, Bson.sortKey]
    · obtain ⟨items, -, rfl⟩ := Outcome.map_eq_ok.1 h
      simp [Bson.IsOrdered, Bson.sortKey]
    · cases h

/-- The stored value of a property equals itself in filters. -/
theorem isOrdered_encode (h : p.encode value = .ok stored) : stored.IsOrdered :=
  isOrdered_encodeValue (Outcome.mapError_eq_ok.1 h)

end Property

end DocMapping
