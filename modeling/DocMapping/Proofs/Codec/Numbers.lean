import DocMapping.Proofs.Codec.Lossless
import DocMapping.Proofs.Number.Reading
import DocMapping.Proofs.Number.Whole

/-!
# Stored Numbers that Can Be Read

Some number is read from whatever a number was stored as, though not always the one that was written:
a text may be read as another type of number, and a stored double is only near to a wide whole number.
What is read must fit the kind of the property, and this is the only reason to refuse it.
-/

namespace DocMapping

namespace Numeral

variable {permissions : Permissions} {n : Numeral} {form : NumberForm} {stored : Bson}

/-! ## Numbers that fit a form -/

def isNaN : Numeral → Bool
  | double value => value.isNaN
  | _ => false

def hasFraction : Numeral → Bool
  | integer _ => false
  | double value => value.hasFraction
  | decimal value => value.hasFraction

/-- The number rounded toward zero, within 128 bits. -/
def truncated : Numeral → Int
  | integer value => value.toInt
  | double value => value.truncateInto (-2 ^ 127) (2 ^ 127 - 1)
  | decimal value => value.truncate

/-- A whole number between two ends, up to the losses that are permitted. -/
structure FitsBetween (permissions : Permissions) (lower upper : Int) (n : Numeral) : Prop where
  number : n.isNaN = false
  whole : n.hasFraction = true → permissions.truncation = true
  range : permissions.overflow = false → lower ≤ n.truncated ∧ n.truncated ≤ upper

/-- The nearest double is the number itself. -/
def IsDouble : Numeral → Prop
  | integer value => (Binary64.ofInt value.toInt).truncateInto (-2 ^ 63) (2 ^ 63 - 1) = value.toInt
  | double _ => True
  | decimal value => (Decimal.ofBinary? value.toBinary).any (·.numericEq value) = true

/-- The number is in the range of decimals, or may be moved to its end. -/
def FitsDecimal (permissions : Permissions) : Numeral → Prop
  | double value =>
    (Decimal.ofBinary? value).isSome = true ∨ value.isNaN = false ∧ permissions.overflow = true
  | _ => True

/-- A form can hold the number, up to the losses that are permitted. -/
def Fits (permissions : Permissions) (n : Numeral) : NumberForm → Prop
  | .int32 => n.FitsBetween permissions (-2 ^ 31) (2 ^ 31 - 1)
  | .int64 => n.FitsBetween permissions (-2 ^ 63) (2 ^ 63 - 1)
  | .double => permissions.truncation = true ∨ n.IsDouble
  | .decimal => n.FitsDecimal permissions

theorem whole_iff {whole : Int} : n.whole permissions = .ok whole ↔
    n.isNaN = false ∧ (n.hasFraction = true → permissions.truncation = true) ∧
      n.truncated = whole := by
  have hfraction {fraction : Bool} {number : Int} {fault : ConversionFault} :
      (if fraction && !permissions.truncation then .error fault else .ok number) =
        Except.ok whole ↔ (fraction = true → permissions.truncation = true) ∧ number = whole := by
    cases fraction <;> cases permissions.truncation <;> simp
  cases n with
  | integer value =>
    change Except.ok value.toInt = .ok whole ↔ false = false ∧ (false = true → _) ∧
      value.toInt = whole
    simp
  | double value =>
    change (if value.isNaN then _ else _) = _ ↔ value.isNaN = false ∧ _
    cases value.isNaN with
    | true => simp
    | false =>
      rw [if_neg Bool.false_ne_true, hfraction]
      exact (and_iff_right rfl).symm
  | decimal value =>
    refine hfraction.trans ?_
    exact (and_iff_right rfl).symm

theorem toInteger_iff {lower upper : Int} :
    (∃ whole, n.toInteger permissions lower upper = .ok whole) ↔
      n.FitsBetween permissions lower upper := by
  have hrange (number : Int) : (∃ whole, (if lower ≤ number ∧ number ≤ upper then .ok number
      else if permissions.overflow then .ok (max lower (min number upper))
      else .error (ConversionFault.outsideRange n.text (toString lower) (toString upper))) = Except.ok whole) ↔
      (permissions.overflow = false → lower ≤ number ∧ number ≤ upper) := by
    by_cases hinside : lower ≤ number ∧ number ≤ upper
    · simp [hinside]
    · cases permissions.overflow <;> simp [hinside]
  constructor
  · rintro ⟨whole, h⟩
    obtain ⟨number, hnumber, h⟩ := Outcome.bind_eq_ok.1 h
    obtain ⟨hnan, hfraction, rfl⟩ := whole_iff.1 hnumber
    exact ⟨hnan, hfraction, (hrange _).1 ⟨whole, h⟩⟩
  · rintro ⟨hnan, hfraction, hinside⟩
    obtain ⟨whole, h⟩ := (hrange _).2 hinside
    exact ⟨whole, Outcome.bind_eq_ok.2 ⟨_, whole_iff.2 ⟨hnan, hfraction, rfl⟩, h⟩⟩

/-- Without permission for overflow, a narrow form holds narrow numbers only. -/
theorem range_of_toBson {value : Int64} (hoverflow : permissions.overflow = false)
    (h : (integer value).toBson permissions .int32 = .ok stored) :
    -2 ^ 31 ≤ value.toInt ∧ value.toInt < 2 ^ 31 := by
  obtain ⟨_, hnumber, -⟩ := Outcome.map_eq_ok.1 h
  obtain ⟨whole, hwhole, -⟩ := Outcome.map_eq_ok.1 hnumber
  obtain ⟨hlower, hupper⟩ := (toInteger_iff.1 ⟨whole, hwhole⟩).range hoverflow
  exact ⟨hlower, Int.lt_of_le_sub_one hupper⟩

theorem toDouble_iff :
    (∃ number, n.toDouble permissions = .ok number) ↔
      permissions.truncation = true ∨ n.IsDouble := by
  have hexactly {number : Binary64} {exact : Bool} {fault : ConversionFault} :
      (∃ x, (if exact || permissions.truncation then .ok number else .error fault) =
        Except.ok x) ↔ permissions.truncation = true ∨ exact = true := by
    cases exact <;> cases permissions.truncation <;> simp
  unfold toDouble IsDouble
  cases n with
  | integer value =>
    dsimp only
    generalize Binary64.ofInt value.toInt = nearest
    exact hexactly.trans (or_congr_right beq_iff_eq)
  | double value => exact iff_of_true ⟨value, rfl⟩ (.inr trivial)
  | decimal value =>
    dsimp only
    generalize value.toBinary = nearest
    exact hexactly

theorem toDecimal_iff :
    (∃ number, n.toDecimal permissions = .ok number) ↔ n.FitsDecimal permissions := by
  cases n with
  | integer value => exact iff_of_true ⟨_, rfl⟩ trivial
  | decimal value => exact iff_of_true ⟨_, rfl⟩ trivial
  | double value =>
    unfold toDecimal FitsDecimal
    dsimp only
    cases Decimal.ofBinary? value with
    | some number => simp
    | none => cases value.isNaN <;> cases permissions.overflow <;> simp

/-- A number becomes a value of a form exactly if the form can hold it. -/
theorem toValue_iff :
    (∃ value, n.toValue permissions form = .ok value) ↔ n.Fits permissions form := by
  cases form with
  | int32 => exact Outcome.exists_map_iff.trans (Outcome.exists_map_iff.trans toInteger_iff)
  | int64 => exact Outcome.exists_map_iff.trans (Outcome.exists_map_iff.trans toInteger_iff)
  | double => exact Outcome.exists_map_iff.trans toDouble_iff
  | decimal => exact Outcome.exists_map_iff.trans toDecimal_iff

/-! ## Numbers that were stored -/

/-- The number that a form holds in place of a number. -/
def recast (permissions : Permissions) (n : Numeral) : NumberForm → Except ConversionFault Numeral
  | .int32 => (n.toInt32 permissions).map fun number ↦ integer (Int64.ofInt number.toInt)
  | .int64 => (n.toInt64 permissions).map integer
  | .double => (n.toDouble permissions).map double
  | .decimal => (n.toDecimal permissions).map fun number ↦ decimal number.unsignZero

theorem ofBson?_toBson (h : n.toBson permissions form = .ok stored) :
    ∃ m, n.recast permissions form = .ok m ∧ ofBson? permissions stored = .ok (some m) := by
  cases form with
  | int32 | int64 | double =>
    unfold toBson at h
    obtain ⟨number, hnumber, rfl⟩ := Outcome.map_eq_ok.1 h
    exact ⟨_, Outcome.map_eq_ok.2 ⟨number, hnumber, rfl⟩, rfl⟩
  | decimal =>
    obtain ⟨number, hnumber, rfl⟩ := Outcome.map_eq_ok.1 h
    refine ⟨_, Outcome.map_eq_ok.2 ⟨number, hnumber, rfl⟩, ?_⟩
    rw [ofBson?, Decimal128.toDecimal_ofDecimal]
    rfl

/-! ## Whole numbers -/

/-- The numeral stands for a whole number. -/
structure IsInteger (n : Numeral) (whole : Int) : Prop where
  number : n.isNaN = false
  hasFraction : n.hasFraction = false
  truncated : n.truncated = whole

theorem IsInteger.fitsBetween {whole lower upper : Int} (h : n.IsInteger whole)
    (hlow : lower ≤ whole) (hhigh : whole ≤ upper) : n.FitsBetween permissions lower upper where
  number := h.number
  whole hfraction := by
    rw [h.hasFraction] at hfraction
    cases hfraction
  range _ := by
    rw [h.truncated]
    exact ⟨hlow, hhigh⟩

theorem IsInteger.whole_eq {n : Numeral} {whole : Int} (h : n.IsInteger whole) :
    n.whole permissions = .ok whole := by
  refine whole_iff.2 ⟨h.number, fun hfraction ↦ ?_, h.truncated⟩
  rw [h.hasFraction] at hfraction
  cases hfraction

theorem IsInteger.toInteger {n : Numeral} {whole lower upper : Int} (h : n.IsInteger whole)
    (hlow : lower ≤ whole) (hhigh : whole ≤ upper) :
    n.toInteger permissions lower upper = .ok whole := by
  unfold Numeral.toInteger
  rw [h.whole_eq]
  exact if_pos ⟨hlow, hhigh⟩

theorem isInteger_double {x : Binary64} {whole : Int} (h : x.IsWhole whole)
    (hrange : whole.natAbs ≤ 2 ^ 63) : (double x).IsInteger whole := by
  refine ⟨Binary64.isNaN_of_finite h.finite, h.hasFraction, h.truncateInto.trans ?_⟩
  omega

theorem isInteger_decimal {whole : Int} (h : whole.natAbs < 2 ^ 96) :
    (decimal (Decimal.ofInt whole).unsignZero).IsInteger whole := by
  have hcoefficient : (Decimal.ofInt whole).coefficient.val = whole.natAbs := Nat.mod_eq_of_lt h
  refine ⟨rfl, ?_, ?_⟩
  · change (_ % 1 != 0) = false
    rw [Nat.mod_one]
    rfl
  · change (if (decide (whole < 0) && (Decimal.ofInt whole).coefficient.val != 0) = true then
      -((((Decimal.ofInt whole).coefficient.val) / 1 : Nat) : Int)
      else (((Decimal.ofInt whole).coefficient.val) / 1 : Nat)) = whole
    rw [hcoefficient, Nat.div_one]
    simp only [Bool.and_eq_true, decide_eq_true_eq, bne_iff_ne]
    omega

/-- A whole number is held as itself, unless it is too wide for a narrow form or for a double. -/
theorem isInteger_recast {value : Int64} {m : Numeral}
    (h : (integer value).recast permissions form = .ok m)
    (hnarrow : form = .int32 → -2 ^ 31 ≤ value.toInt ∧ value.toInt < 2 ^ 31)
    (hdouble : form = .double → (Binary64.ofInt value.toInt).IsWhole value.toInt) :
    m.IsInteger value.toInt := by
  have hlow := value.le_toInt
  have hhigh := value.toInt_lt
  unfold recast at h
  cases form with
  | int32 =>
    obtain ⟨hlower, hupper⟩ := hnarrow rfl
    obtain ⟨_, hnumber, rfl⟩ := Outcome.map_eq_ok.1 h
    obtain ⟨_, hwhole, rfl⟩ := Outcome.map_eq_ok.1 hnumber
    rw [toInteger_integer hlower (by omega)] at hwhole
    cases hwhole
    rw [Int32.toInt_ofInt_of_le hlower hupper, Int64.ofInt_toInt]
    exact ⟨rfl, rfl, rfl⟩
  | int64 =>
    obtain ⟨_, hnumber, rfl⟩ := Outcome.map_eq_ok.1 h
    obtain ⟨_, hwhole, rfl⟩ := Outcome.map_eq_ok.1 hnumber
    rw [toInteger_integer hlow (by omega)] at hwhole
    cases hwhole
    rw [Int64.ofInt_toInt]
    exact ⟨rfl, rfl, rfl⟩
  | double =>
    obtain ⟨_, hnumber, rfl⟩ := Outcome.map_eq_ok.1 h
    have hexact := isInteger_double (hdouble rfl) (by omega)
    unfold toDouble at hnumber
    dsimp only at hnumber
    generalize Binary64.ofInt value.toInt = nearest at hnumber hexact
    split at hnumber <;> cases hnumber
    exact hexact
  | decimal =>
    obtain ⟨_, hnumber, rfl⟩ := Outcome.map_eq_ok.1 h
    cases hnumber
    exact isInteger_decimal (by omega)

end Numeral

namespace Property

variable {p : Property} {n : Numeral} {stored : Bson}

/-- The number that is read from the stored form of a number. -/
def storedNumber (p : Property) (n : Numeral) : Except ConversionFault Numeral :=
  if p.representation = .string then readText (Numeral.ofText? n.text)
  else n.recast p.permissions (p.representation.numberForm?.getD p.scalarKind.numberForm)

/-- Whatever a number was stored as is read as a number. -/
theorem readNumber_encodeNumber (h : p.encodeNumber n = .ok stored) :
    ∃ m, p.storedNumber n = .ok m ∧ p.readNumber stored = .ok m := by
  unfold encodeNumber at h
  unfold storedNumber
  split at h
  · next htext =>
    cases h
    obtain ⟨m, hm⟩ := Option.isSome_iff_exists.1 n.ofText?_text
    rw [if_pos htext, hm]
    refine ⟨m, rfl, ?_⟩
    change (Except.ok (Numeral.ofText? n.text)).bind _ = _
    rw [hm]
    rfl
  · next htext =>
    obtain ⟨m, hrecast, hread⟩ := Numeral.ofBson?_toBson h
    rw [if_neg htext]
    refine ⟨m, hrecast, ?_⟩
    unfold readNumber
    rw [hread]
    rfl

/-- What a number was stored as fits the kind of the property. -/
def LegibleNumber (p : Property) (n : Numeral) : Prop :=
  ∀ m, p.storedNumber n = .ok m → m.Fits p.permissions p.scalarKind.numberForm

theorem decodeNumber_iff (h : p.encodeNumber n = .ok stored) :
    (∃ value, p.decodeNumber stored = .ok value) ↔ p.LegibleNumber n := by
  obtain ⟨m, hm, hread⟩ := readNumber_encodeNumber h
  unfold decodeNumber LegibleNumber
  rw [hread, hm]
  change (∃ value, m.toValue p.permissions p.scalarKind.numberForm = .ok value) ↔ _
  rw [Numeral.toValue_iff]
  exact ⟨fun hfits _ hother ↦ Except.ok.inj hother ▸ hfits, fun hfits ↦ hfits m rfl⟩

/-- The form that numbers of the property are stored in, unless it is their text. -/
def numberForm (p : Property) : NumberForm :=
  p.representation.numberForm?.getD p.scalarKind.numberForm

/-- The text of a whole number is read as itself. -/
theorem isInteger_storedNumber {value : Int64} {m : Numeral}
    (h : p.storedNumber (.integer value) = .ok m)
    (hnarrow : p.numberForm = .int32 → -2 ^ 31 ≤ value.toInt ∧ value.toInt < 2 ^ 31)
    (hdouble : p.numberForm = .double → (Binary64.ofInt value.toInt).IsWhole value.toInt) :
    m.IsInteger value.toInt := by
  unfold storedNumber at h
  split at h
  · have hread : Numeral.ofText? (Numeral.integer value).text = some (.integer value) := by
      unfold Numeral.ofText? Numeral.text
      dsimp only
      rw [Numeral.integerOfText?_toString]
      rfl
    rw [hread] at h
    cases h
    exact ⟨rfl, rfl, rfl⟩
  · exact Numeral.isInteger_recast h hnarrow hdouble

/-- Numbers of 32 bits are read in whichever form they are stored. -/
theorem legibleNumber_int32 (hkind : p.scalarKind = .int32) (number : Int32) :
    p.LegibleNumber (.integer (Int64.ofInt number.toInt)) := by
  have hrange := Numeral.range_int32 number
  intro m hm
  have hinteger := isInteger_storedNumber hm (fun _ ↦ hrange) fun _ ↦
    Binary64.isWhole_ofInt (by omega)
  rw [hkind]
  exact hinteger.fitsBetween hrange.1 (by omega)

/-! ### Values that are whole numbers -/

/-- A property of whole numbers writes and reads its value as a number of 64 bits. -/
structure Carries (p : Property) (value : Value) (number : Int64) : Prop where
  form : p.scalarKind.numberForm = .int32 ∧ -2 ^ 31 ≤ number.toInt ∧ number.toInt < 2 ^ 31 ∨
    p.scalarKind.numberForm = .int64
  ne_null : value ≠ .null
  encode : p.encodeScalar value = p.encodeNumber (.integer number)
  decode : ∀ stored, p.decodeScalar stored = p.decodeNumber stored
  read : ∀ m : Numeral, m.IsInteger number.toInt →
    m.toValue p.permissions p.scalarKind.numberForm = .ok value

theorem carries_int32 (hkind : p.scalarKind = .int32) (number : Int32) :
    p.Carries (.int32 number) (Int64.ofInt number.toInt) := by
  obtain ⟨hlow, hhigh⟩ := Numeral.range_int32 number
  refine ⟨?_, by simp, encodeScalar_int32 hkind number, fun stored ↦ ?_, fun m hm ↦ ?_⟩
  · rw [hkind]
    exact .inl ⟨rfl, hlow, hhigh⟩
  · unfold decodeScalar
    rw [hkind]
  · have hread : m.toInt32 p.permissions = .ok number := by
      rw [Numeral.toInt32, hm.toInteger hlow (by omega), Numeral.toInt_int32]
      exact congrArg Except.ok (Int32.ofInt_toInt number)
    rw [hkind]
    change (m.toInt32 p.permissions).map Value.int32 = _
    rw [hread]
    rfl

theorem carries_int64 (hkind : p.scalarKind = .int64) (number : Int64) :
    p.Carries (.int64 number) number := by
  have hlow := number.le_toInt
  have hhigh := number.toInt_lt
  refine ⟨?_, by simp, encodeScalar_int64 hkind number, decodeScalar_int64 hkind, fun m hm ↦ ?_⟩
  · rw [hkind]
    exact .inr rfl
  · have hread : m.toInt64 p.permissions = .ok number := by
      rw [Numeral.toInt64, hm.toInteger hlow (by omega)]
      exact congrArg Except.ok (Int64.ofInt_toInt number)
    rw [hkind]
    change (m.toInt64 p.permissions).map Value.int64 = _
    rw [hread]
    rfl

/-- A number that its form can hold is read again. -/
theorem Carries.decodeNumber {value : Value} {number : Int64} (h : p.Carries value number)
    (hencode : p.encodeNumber (.integer number) = .ok stored)
    (hnarrow : p.numberForm = .int32 → -2 ^ 31 ≤ number.toInt ∧ number.toInt < 2 ^ 31)
    (hdouble : p.numberForm = .double → (Binary64.ofInt number.toInt).IsWhole number.toInt) :
    p.decodeNumber stored = .ok value := by
  obtain ⟨m, hm, hread⟩ := readNumber_encodeNumber hencode
  unfold Property.decodeNumber
  rw [hread]
  exact h.read m (isInteger_storedNumber hm hnarrow hdouble)

end Property

end DocMapping
