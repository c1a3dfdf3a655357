import DocMapping.Proofs.Codec.Legible
import Mathlib

/-!
# Whole Numbers in Documents

A property of whole numbers that permits no loss stores exactly its number, in whichever form, and
reads the same number from it.  One number is an exception: the greatest of 64 bits is stored as a
double that is one more, and this double is then refused as out of range.
-/

namespace DocMapping

/-! ## What is stored -/

/-- The stored decimal is exactly the whole number. -/
structure Decimal128.IsWhole (d : Decimal128) (whole : Int) : Prop where
  isNaN : d.isNaN = false
  isInfinite : d.isInfinite = false
  value : (if d.negative then -(d.coefficient : Int) else d.coefficient) * 10 ^ d.exponent.toNat =
    whole * 10 ^ (-d.exponent).toNat

/-- What is stored is a number, or the text of one, that is exactly the whole number. -/
def Bson.Denotes : Bson → Int → Prop
  | int32 number, whole => number.toInt = whole
  | int64 number, whole => number.toInt = whole
  | double number, whole => number.IsWhole whole
  | decimal128 number, whole => number.IsWhole whole
  | string text, whole => text.toInt? = some whole
  | _, _ => False

theorem Decimal128.isWhole_ofInt {whole : Int} (h : whole.natAbs < 2 ^ 96) :
    (ofDecimal (Decimal.ofInt whole)).IsWhole whole := by
  obtain ⟨hcombination, -, hnegative, hcoefficient, hexponent⟩ :=
    fields_ofDecimal (Decimal.ofInt whole)
  have hscale : ((Decimal.ofInt whole).scale.val : Int) = 0 := rfl
  have hwhole := Decimal.signedCoefficient_ofInt h
  refine ⟨by simp [isNaN, hcombination], by simp [isInfinite, hcombination], ?_⟩
  rw [hnegative, hcoefficient, hexponent, hscale, ← Decimal.natAbs_signedCoefficient, hwhole]
  simp only [decide_eq_true_eq, Int.neg_zero, Int.toNat_zero, pow_zero, mul_one]
  omega

/-! ## Strict conversions -/

namespace Numeral

variable {permissions : Permissions} {value : Int64} {form : NumberForm} {stored : Bson}

/-- The form holds the number as it is; a double also stands in for the greatest number. -/
structure Holds (form : NumberForm) (whole : Int) : Prop where
  narrow : form = .int32 → -2 ^ 31 ≤ whole ∧ whole < 2 ^ 31
  double : form = .double → (Binary64.ofInt whole).IsWhole whole ∨ whole = 2 ^ 63 - 1

theorem holds_of_toBson (hoverflow : permissions.overflow = false)
    (htruncation : permissions.truncation = false)
    (h : (integer value).toBson permissions form = .ok stored) : Holds form value.toInt := by
  have hlow := value.le_toInt
  have hhigh := value.toInt_lt
  refine ⟨?_, ?_⟩ <;> rintro rfl
  · exact range_of_toBson hoverflow h
  · unfold toBson at h
    obtain ⟨nearest, hnearest, -⟩ := Outcome.map_eq_ok.1 h
    have hdouble := (toDouble_iff.1 ⟨nearest, hnearest⟩).resolve_left (by simp [htruncation])
    exact (Binary64.truncateInto_ofInt_eq_iff hlow hhigh).1 hdouble

theorem denotes_wholeBson
    (hnarrow : form = .int32 → -2 ^ 31 ≤ value.toInt ∧ value.toInt < 2 ^ 31)
    (hdouble : form = .double → (Binary64.ofInt value.toInt).IsWhole value.toInt) :
    (wholeBson value form).Denotes value.toInt := by
  cases form with
  | int32 => exact Int32.toInt_ofInt_of_le (hnarrow rfl).1 (hnarrow rfl).2
  | int64 => rfl
  | double => exact hdouble rfl
  | decimal =>
    have hlow := value.le_toInt
    have hhigh := value.toInt_lt
    exact Decimal128.isWhole_ofInt (by omega)

theorem IsInteger.toInteger_error {n : Numeral} {whole lower upper : Int} (h : n.IsInteger whole)
    (hhigh : upper < whole) (hoverflow : permissions.overflow = false) :
    ∃ fault, n.toInteger permissions lower upper = .error fault := by
  unfold Numeral.toInteger
  rw [h.whole_eq, hoverflow]
  exact ⟨_, (if_neg (by omega)).trans (if_neg Bool.false_ne_true)⟩

end Numeral

/-! ## Properties of whole numbers -/

/-- The value is a whole number of the kind. -/
inductive Value.IsWhole : ScalarKind → Value → Int → Prop
  | int32 (number : Int32) : IsWhole .int32 (.int32 number) number.toInt
  | int64 (number : Int64) : IsWhole .int64 (.int64 number) number.toInt

namespace Property

variable {p : Property} {kind : ScalarKind} {value : Value} {whole : Int} {stored : Bson}

theorem exists_carries (hkind : p.scalarKind = kind) (hvalue : value.IsWhole kind whole) :
    ∃ number : Int64, number.toInt = whole ∧ p.Carries value number := by
  cases hvalue with
  | int32 number =>
    exact ⟨_, Numeral.toInt_int32 number, carries_int32 hkind number⟩
  | int64 number => exact ⟨number, rfl, carries_int64 hkind number⟩

namespace Carries

variable {number : Int64}

theorem form_double (h : p.Carries value number) (hform : p.numberForm = .double) :
    p.representation = .double := by
  cases hrepresentation : p.representation with
  | double => rfl
  | _ =>
    rw [numberForm, hrepresentation] at hform
    rcases h.form with ⟨hkind, -⟩ | hkind <;> simp [Representation.numberForm?, hkind] at hform

/-- A number that is stored without loss is stored exactly, and read again. -/
theorem exact (h : p.Carries value number) (hoverflow : p.allowOverflow = false)
    (htruncation : p.allowTruncation = false)
    (hencode : p.encodeNumber (.integer number) = .ok stored)
    (hwide : p.representation = .double → number.toInt ≠ 2 ^ 63 - 1) :
    stored.Denotes number.toInt ∧ p.decodeNumber stored = .ok value := by
  have hholds (htext : p.representation ≠ .string) :
      Numeral.Holds p.numberForm number.toInt := by
    rw [encodeNumber, if_neg htext] at hencode
    exact Numeral.holds_of_toBson hoverflow htruncation hencode
  have hnarrow : p.numberForm = .int32 → -2 ^ 31 ≤ number.toInt ∧ number.toInt < 2 ^ 31 := by
    intro hform
    by_cases htext : p.representation = .string
    · rcases h.form with ⟨-, hrange⟩ | hkind
      · exact hrange
      · simp [numberForm, htext, Representation.numberForm?, hkind] at hform
    · exact (hholds htext).narrow hform
  have hdouble : p.numberForm = .double →
      (Binary64.ofInt number.toInt).IsWhole number.toInt := by
    intro hform
    have hrepresentation := h.form_double hform
    exact ((hholds (by simp [hrepresentation])).double hform).resolve_right
      (hwide hrepresentation)
  refine ⟨?_, h.decodeNumber hencode hnarrow hdouble⟩
  by_cases htext : p.representation = .string
  · rw [encodeNumber, if_pos htext] at hencode
    cases hencode
    exact Int.toInt?_repr number.toInt
  · rw [encodeNumber, if_neg htext] at hencode
    rw [Numeral.toBson_integer hencode hnarrow]
    exact Numeral.denotes_wholeBson hnarrow hdouble

/-- The greatest number is stored as a double that is one more, and cannot be read. -/
theorem inexact (h : p.Carries value number) (hoverflow : p.allowOverflow = false)
    (hencode : p.encodeNumber (.integer number) = .ok stored)
    (hdouble : p.representation = .double) (hlast : number.toInt = 2 ^ 63 - 1) :
    stored.Denotes (2 ^ 63) ∧ ∃ fault, p.decodeNumber stored = .error fault := by
  have hkind : p.scalarKind.numberForm = .int64 := h.form.resolve_left fun hnarrow ↦ by omega
  rw [encodeNumber, if_neg (by simp [hdouble]), hdouble] at hencode
  have hstored := Numeral.toBson_integer hencode fun hform ↦ by cases hform
  have hwhole := Binary64.isWhole_ofInt_last
  rw [← hlast] at hwhole
  rw [hstored]
  refine ⟨hwhole, ?_⟩
  have hinteger := Numeral.isInteger_double hwhole (by omega)
  obtain ⟨fault, hfault⟩ : ∃ fault, (Numeral.double (Binary64.ofInt number.toInt)).toInteger
      p.permissions (-2 ^ 63) (2 ^ 63 - 1) = .error fault :=
    hinteger.toInteger_error (by omega) hoverflow
  refine ⟨fault, ?_⟩
  change (Numeral.double (Binary64.ofInt number.toInt)).toValue p.permissions
    p.scalarKind.numberForm = .error fault
  rw [hkind, Numeral.toValue, Numeral.toInt64, hfault]
  rfl

end Carries

/-- A whole number that is stored without permission for any loss is stored exactly and read again,
unless it is the greatest of 64 bits and stored as a double. -/
theorem encode_whole (hkind : p.kind = .scalar kind) (hvalue : value.IsWhole kind whole)
    (hoverflow : p.allowOverflow = false) (htruncation : p.allowTruncation = false)
    (h : p.encode value = .ok stored) :
    (¬(p.representation = .double ∧ whole = 2 ^ 63 - 1) →
      stored.Denotes whole ∧ p.decode stored = .ok value) ∧
    (p.representation = .double ∧ whole = 2 ^ 63 - 1 →
      stored.Denotes (2 ^ 63) ∧ ∃ fault, p.decode stored = .error fault) := by
  obtain ⟨number, rfl, hcarries⟩ :=
    exists_carries (p := p) (congrArg PropertyKind.scalarKind hkind) hvalue
  have hscalar := encodeScalar_of_encode hkind h
  have hstored := ne_null_of_encodeScalar hcarries.ne_null hscalar
  rw [hcarries.encode] at hscalar
  rw [decode_of_ne_null hkind hstored, hcarries.decode]
  constructor
  · intro hexact
    obtain ⟨hdenotes, hdecode⟩ := hcarries.exact hoverflow htruncation hscalar fun hdouble hlast ↦
      hexact ⟨hdouble, hlast⟩
    rw [hdecode]
    exact ⟨hdenotes, rfl⟩
  · rintro ⟨hdouble, hlast⟩
    obtain ⟨hdenotes, fault, hfault⟩ := hcarries.inexact hoverflow hscalar hdouble hlast
    rw [hfault]
    exact ⟨hdenotes, _, rfl⟩

/-! ### The greatest number -/

/-- A property of numbers of 64 bits. -/
def counter (representation : Representation) : Property :=
  { plain "Num" (.scalar .int64) with representation := representation }

def greatest : Int64 := Int64.ofInt (2 ^ 63 - 1)

theorem encode_whole_text :
    (counter .string).encode (.int64 greatest) = .ok (.string "9223372036854775807") ∧
      (Bson.string "9223372036854775807").Denotes (2 ^ 63 - 1) ∧
      (counter .string).decode (.string "9223372036854775807") = .ok (.int64 greatest) := by
  have hencode : (counter .string).encode (.int64 greatest) =
      .ok (.string "9223372036854775807") := rfl
  have hwhole := (encode_whole (p := counter .string) rfl (.int64 greatest) rfl rfl hencode).1
    (by simp [counter])
  exact ⟨hencode, hwhole⟩

theorem encodeNumber_greatest : (counter .double).encodeNumber (.integer greatest) =
    .ok (.double (Binary64.ofInt (2 ^ 63 - 1))) := by
  have hvalue : greatest.toInt = 2 ^ 63 - 1 := by decide
  have hexact : (Binary64.ofInt (2 ^ 63 - 1)).truncateInto (-2 ^ 63) (2 ^ 63 - 1) = 2 ^ 63 - 1 :=
    (Binary64.truncateInto_ofInt_eq_iff (by decide) (by decide)).2 (.inr rfl)
  have hdouble : (Numeral.integer greatest).toDouble ⟨false, false⟩ =
      .ok (Binary64.ofInt (2 ^ 63 - 1)) := by
    unfold Numeral.toDouble
    dsimp only
    rw [hvalue, hexact]
    rfl
  change ((Numeral.integer greatest).toDouble ⟨false, false⟩).map Bson.double = _
  rw [hdouble]
  rfl

/-- As a double, the greatest number is stored as one more without an error. -/
theorem encode_greatest_inexact :
    ∃ stored, (counter .double).encode (.int64 greatest) = .ok stored ∧
      greatest.toInt = 2 ^ 63 - 1 ∧ ¬stored.Denotes (2 ^ 63 - 1) ∧ stored.Denotes (2 ^ 63) ∧
      (counter .double).decode stored ≠ .ok (.int64 greatest) := by
  have hvalue : greatest.toInt = 2 ^ 63 - 1 := by decide
  have hcarries : (counter .double).Carries (.int64 greatest) greatest :=
    carries_int64 rfl greatest
  obtain ⟨hdenotes, fault, hfault⟩ := hcarries.inexact rfl encodeNumber_greatest rfl hvalue
  refine ⟨_, congrArg (counter .double).reporting encodeNumber_greatest, hvalue, fun hother ↦ ?_,
    hdenotes, ?_⟩
  · exact absurd (Binary64.IsWhole.unique hother hdenotes) (by decide)
  · rw [decode_of_ne_null rfl (by simp), hcarries.decode, hfault]
    exact fun hread ↦ by cases hread

end Property

end DocMapping
