import DocMapping.Bson.Order
import DocMapping.Codec.Property
import DocMapping.Proofs.Number.Approximation
import DocMapping.Proofs.Order
import DocMapping.Proofs.Outcome
import DocMapping.Value.Equality

/-!
# Lossless Stored Forms

Values of the kinds with an order that are stored without loss, and what the order of stored values
sees of them.  A number that is stored as a number is seen as the nearest double of a whole number, of
a stored decimal as its approximation, whatever the type it is stored in.
-/

namespace DocMapping

/-- A value of a kind with an order: a number other than a double, a member of an enumeration, a date
or a time. -/
inductive HasOrder : ScalarKind → Value → Prop
  | int32 (number : Int32) : HasOrder .int32 (.int32 number)
  | int64 (number : Int64) : HasOrder .int64 (.int64 number)
  | decimal (number : Decimal) : HasOrder .decimal (.decimal number)
  | enum (type : EnumType) (member : Int64) : HasOrder (.enum type) (.enum member)
  | date (date : Date) : HasOrder .date (.date date)
  | dateTime (d : DateTime) : HasOrder .dateTime (.dateTime d)
  | time (time : Time) : HasOrder .time (.time time)

theorem Property.readText_eq_ok {α : Type} {reading : Option α} {value : α} :
    readText reading = .ok value ↔ reading = some value := by
  cases reading <;> simp [readText]

theorem Property.encodeScalar_of_encode {p : Property} {kind : ScalarKind} {value : Value}
    {stored : Bson} (hkind : p.kind = .scalar kind) (h : p.encode value = .ok stored) :
    p.encodeScalar value = .ok stored := by
  have hencoded := Outcome.mapError_eq_ok.1 h
  unfold encodeValue at hencoded
  rwa [hkind] at hencoded

/-- The value has a stored form, and an equal value is read back from it. -/
structure Property.Lossless (p : Property) (value : Value) (stored : Bson) : Prop where
  encoded : p.encode value = .ok stored
  decoded : ∃ read, p.decode stored = .ok read ∧ read.structuralEq value = true

namespace Property.Lossless

variable {p : Property} {kind : ScalarKind} {value x y : Value} {stored : Bson}

theorem encodeScalar (h : p.Lossless value stored) (hkind : p.kind = .scalar kind) :
    p.encodeScalar value = .ok stored :=
  encodeScalar_of_encode hkind h.encoded

theorem decodeScalar (h : p.Lossless value stored) (hkind : p.kind = .scalar kind)
    (hvalue : HasOrder kind value) :
    ∃ read, p.decodeScalar stored = .ok read ∧ read.structuralEq value = true := by
  obtain ⟨read, hread, hequal⟩ := h.decoded
  refine ⟨read, ?_, hequal⟩
  have hdecoded := Outcome.mapError_eq_ok.1 hread
  unfold decodeValue at hdecoded
  rw [hkind] at hdecoded
  cases stored with
  | null =>
    -- Null would be read back as null, which equals no value with an order.
    dsimp only at hdecoded
    split at hdecoded <;> cases hdecoded
    cases hvalue <;> cases hequal
  | _ => exact hdecoded

theorem eq_of_structuralEq (hvalue : HasOrder kind value) (hkind : kind ≠ .decimal)
    (h : x.structuralEq value = true) : x = value := by
  cases hvalue with
  | decimal => exact absurd rfl hkind
  | int32 number | int64 number | enum _ number | date number | dateTime number | time number =>
    cases x <;> first | cases h | exact congrArg _ (eq_of_beq h)

/-- What is read back, of any kind but the decimals. -/
theorem read (h : p.Lossless value stored) (hkind : p.kind = .scalar kind)
    (hvalue : HasOrder kind value) (hexact : kind ≠ .decimal) :
    p.decodeScalar stored = .ok value := by
  obtain ⟨read, hread, hequal⟩ := h.decodeScalar hkind hvalue
  rwa [eq_of_structuralEq hvalue hexact hequal] at hread

/-- One stored form is that of one value only. -/
theorem eq (hx : p.Lossless x stored) (hy : p.Lossless y stored) (hkind : p.kind = .scalar kind)
    (hvalue : HasOrder kind x) (hvalue' : HasOrder kind y) (hexact : kind ≠ .decimal) : x = y :=
  Except.ok.inj ((hx.read hkind hvalue hexact).symm.trans (hy.read hkind hvalue' hexact))

end Property.Lossless

/-! ## Numbers -/

namespace Numeral

variable {permissions : Permissions} {stored : Bson}

theorem toInteger_integer {number : Int64} {lower upper : Int} (hlow : lower ≤ number.toInt)
    (hhigh : number.toInt ≤ upper) :
    (integer number).toInteger permissions lower upper = .ok number.toInt := by
  change (if lower ≤ number.toInt ∧ number.toInt ≤ upper then _ else _) = _
  rw [if_pos ⟨hlow, hhigh⟩]

/-- What a whole number is stored as in a form that can hold it. -/
def wholeBson (value : Int64) : NumberForm → Bson
  | .int32 => .int32 (Int32.ofInt value.toInt)
  | .int64 => .int64 value
  | .double => .double (Binary64.ofInt value.toInt)
  | .decimal => .decimal128 (Decimal128.ofDecimal (Decimal.ofInt value.toInt))

theorem toBson_integer {number : Int64} {form : NumberForm}
    (h : (integer number).toBson permissions form = .ok stored)
    (hrange : form = .int32 → -2 ^ 31 ≤ number.toInt ∧ number.toInt < 2 ^ 31) :
    stored = wholeBson number form := by
  have hlow := number.le_toInt
  have hhigh := number.toInt_lt
  unfold toBson at h
  cases form with
  | int32 =>
    obtain ⟨hlower, hupper⟩ := hrange rfl
    obtain ⟨_, hnumber, rfl⟩ := Outcome.map_eq_ok.1 h
    obtain ⟨_, hwhole, rfl⟩ := Outcome.map_eq_ok.1 hnumber
    rw [toInteger_integer hlower (by omega)] at hwhole
    cases hwhole
    rfl
  | int64 =>
    obtain ⟨_, hnumber, rfl⟩ := Outcome.map_eq_ok.1 h
    obtain ⟨_, hwhole, rfl⟩ := Outcome.map_eq_ok.1 hnumber
    rw [toInteger_integer hlow (by omega)] at hwhole
    cases hwhole
    exact congrArg Bson.int64 (Int64.ofInt_toInt number)
  | double =>
    obtain ⟨_, hnumber, rfl⟩ := Outcome.map_eq_ok.1 h
    unfold toDouble at hnumber
    unfold wholeBson
    dsimp only at hnumber ⊢
    generalize Binary64.ofInt number.toInt = nearest at hnumber ⊢
    split at hnumber <;> cases hnumber
    rfl
  | decimal =>
    obtain ⟨_, hnumber, rfl⟩ := Outcome.map_eq_ok.1 h
    cases hnumber
    rfl

/-- Whole numbers are seen as the nearest doubles, in whichever type they are stored. -/
theorem sortKey_integer {number : Int64} {form : NumberForm}
    (h : (integer number).toBson permissions form = .ok stored)
    (hrange : form = .int32 → -2 ^ 31 ≤ number.toInt ∧ number.toInt < 2 ^ 31) :
    stored.sortKey = .number (Binary64.ofInt number.toInt) := by
  rw [toBson_integer h hrange]
  cases form with
  | int32 =>
    obtain ⟨hlower, hupper⟩ := hrange rfl
    rw [wholeBson, Bson.sortKey, Int32.toInt_ofInt_of_le hlower hupper]
  | int64 => rw [wholeBson, Bson.sortKey]
  | double => rw [wholeBson, Bson.sortKey]
  | decimal =>
    have hlow := number.le_toInt
    have hhigh := number.toInt_lt
    have happroximation :
        (Decimal.ofInt number.toInt).approximation = Binary64.ofInt number.toInt := by
      rw [Decimal.approximation_of_scale rfl, Decimal.signedCoefficient_ofInt (by omega)]
    rw [wholeBson, Bson.sortKey, Decimal128.approximate?_ofDecimal, happroximation]

theorem toInt_int32 (number : Int32) : (Int64.ofInt number.toInt).toInt = number.toInt := by
  have hlow := number.le_toInt
  have hhigh := number.toInt_lt
  exact Int64.toInt_ofInt_of_le (by omega) (by omega)

theorem range_int32 (number : Int32) :
    -2 ^ 31 ≤ (Int64.ofInt number.toInt).toInt ∧ (Int64.ofInt number.toInt).toInt < 2 ^ 31 := by
  rw [toInt_int32]
  exact ⟨number.le_toInt, number.toInt_lt⟩

/-- A narrow whole number that is read as a wide one stays what it is. -/
theorem toInt64_int32 (number : Int32) :
    (integer (Int64.ofInt number.toInt)).toInt64 permissions = .ok (Int64.ofInt number.toInt) := by
  have hrange := range_int32 number
  rw [toInt64, toInteger_integer (by omega) (by omega)]
  exact congrArg Except.ok (Int64.ofInt_toInt _)

theorem toBson_int32 {number : Numeral} (h : number.toBson permissions .int32 = .ok stored) :
    ∃ whole : Int32, stored = .int32 whole := by
  obtain ⟨whole, -, rfl⟩ := Outcome.map_eq_ok.1 h
  exact ⟨whole, rfl⟩

theorem toBson_int64 {number : Numeral} (h : number.toBson permissions .int64 = .ok stored) :
    ∃ whole : Int64, stored = .int64 whole := by
  obtain ⟨whole, -, rfl⟩ := Outcome.map_eq_ok.1 h
  exact ⟨whole, rfl⟩

theorem toBson_double {number : Numeral} (h : number.toBson permissions .double = .ok stored) :
    ∃ nearest, stored = .double nearest := by
  unfold toBson at h
  obtain ⟨nearest, -, rfl⟩ := Outcome.map_eq_ok.1 h
  exact ⟨nearest, rfl⟩

end Numeral

namespace Property

variable {p : Property}

theorem decodeNumber_int32 (p : Property) (number : Int32) :
    p.decodeNumber (.int32 number) =
      (Numeral.integer (Int64.ofInt number.toInt)).toValue p.permissions
        p.scalarKind.numberForm := rfl

theorem decodeNumber_int64 (p : Property) (number : Int64) :
    p.decodeNumber (.int64 number) =
      (Numeral.integer number).toValue p.permissions p.scalarKind.numberForm := rfl

theorem encodeScalar_int32 (hkind : p.scalarKind = .int32) (number : Int32) :
    p.encodeScalar (.int32 number) =
      p.encodeNumber (.integer (Int64.ofInt number.toInt)) := by
  unfold encodeScalar
  rw [hkind]
  rfl

theorem encodeScalar_int64 (hkind : p.scalarKind = .int64) (number : Int64) :
    p.encodeScalar (.int64 number) = p.encodeNumber (.integer number) := by
  unfold encodeScalar
  rw [hkind]
  rfl

theorem encodeScalar_decimal (hkind : p.scalarKind = .decimal) (number : Decimal) :
    p.encodeScalar (.decimal number) = p.encodeNumber (.decimal number) := by
  unfold encodeScalar
  rw [hkind]
  rfl

theorem encodeScalar_double (hkind : p.scalarKind = .double) (x : Binary64) :
    p.encodeScalar (.double x) = p.encodeNumber (.double x) := by
  unfold encodeScalar
  rw [hkind]
  rfl

theorem encodeScalar_enum {type : EnumType} (hkind : p.scalarKind = .enum type) (member : Int64) :
    p.encodeScalar (.enum member) = p.encodeEnum type member := by
  unfold encodeScalar
  rw [hkind]

theorem encodeScalar_dateTime (hkind : p.scalarKind = .dateTime) (d : DateTime) :
    p.encodeScalar (.dateTime d) = p.encodeDateTime d := by
  unfold encodeScalar
  rw [hkind]

theorem encodeScalar_time (hkind : p.scalarKind = .time) (t : Time) :
    p.encodeScalar (.time t) = p.encodeTime t := by
  unfold encodeScalar
  rw [hkind]

theorem encodeScalar_date (hkind : p.scalarKind = .date) (d : Date) :
    p.encodeScalar (.date d) = .ok (if p.representation = .string then .string d.text
      else .dateTime (Int64.ofInt d.milliseconds)) := by
  unfold encodeScalar
  rw [hkind]
  dsimp only
  split <;> rfl

theorem decodeScalar_int64 (hkind : p.scalarKind = .int64) (stored : Bson) :
    p.decodeScalar stored = p.decodeNumber stored := by
  unfold decodeScalar
  rw [hkind]

theorem decodeScalar_decimal (hkind : p.scalarKind = .decimal) (stored : Bson) :
    p.decodeScalar stored = p.decodeNumber stored := by
  unfold decodeScalar
  rw [hkind]

theorem decodeScalar_double (hkind : p.scalarKind = .double) (stored : Bson) :
    p.decodeScalar stored = p.decodeNumber stored := by
  unfold decodeScalar
  rw [hkind]

theorem decodeScalar_enum {type : EnumType} (hkind : p.scalarKind = .enum type) (stored : Bson) :
    p.decodeScalar stored = p.decodeEnum type stored := by
  unfold decodeScalar
  rw [hkind]

/-- A scalar with a stored form equals itself. -/
theorem structuralEq_self {value : Value} {stored : Bson} (h : p.encodeScalar value = .ok stored) :
    value.structuralEq value = true := by
  cases value with
  | collection | entity | record =>
    unfold encodeScalar at h
    generalize p.scalarKind = kind at h
    cases kind <;> cases h
  | decimal number =>
    rw [Value.structuralEq, Value.strictEq, Decimal.numericEq_self]
    all_goals simp
  | _ => simp [Value.structuralEq, Value.strictEq]

end Property

namespace Property.Lossless

variable {p : Property} {stored : Bson}

/-- Numbers of 32 bits are seen as doubles that are exactly these numbers. -/
theorem sortKey_int32 {number : Int32} (h : p.Lossless (.int32 number) stored)
    (hkind : p.kind = .scalar .int32) (hnumeric : p.representation ≠ .string) :
    stored.sortKey = .number (Binary64.ofInt number.toInt) := by
  have hscalar : p.scalarKind = .int32 := congrArg PropertyKind.scalarKind hkind
  have hencode := h.encodeScalar hkind
  rw [encodeScalar_int32 hscalar, encodeNumber, if_neg hnumeric] at hencode
  rw [Numeral.sortKey_integer hencode fun _ ↦ Numeral.range_int32 number,
    Numeral.toInt_int32]

/-- Numbers of 64 bits are seen as the nearest doubles. -/
theorem sortKey_int64 {number : Int64} (h : p.Lossless (.int64 number) stored)
    (hkind : p.kind = .scalar .int64) (hnumeric : p.representation ≠ .string) :
    stored.sortKey = .number (Binary64.ofInt number.toInt) := by
  have hscalar : p.scalarKind = .int64 := congrArg PropertyKind.scalarKind hkind
  have hencode := h.encodeScalar hkind
  rw [encodeScalar_int64 hscalar, encodeNumber, if_neg hnumeric] at hencode
  refine Numeral.sortKey_integer hencode fun hform ↦ ?_
  -- What was moved to the end of the narrow range would be read back as another number.
  rw [hform] at hencode
  obtain ⟨narrow, rfl⟩ := Numeral.toBson_int32 hencode
  have hread := h.read hkind (.int64 number) (by simp)
  rw [decodeScalar_int64 hscalar, decodeNumber_int32, hscalar] at hread
  change ((Numeral.integer (Int64.ofInt narrow.toInt)).toInt64 p.permissions).map Value.int64 =
    .ok (.int64 number) at hread
  rw [Numeral.toInt64_int32] at hread
  cases hread
  exact Numeral.range_int32 narrow

/-- Members of enumerations are seen as their numbers, unless they are stored as names. -/
theorem sortKey_enum {type : EnumType} {member : Int64} (h : p.Lossless (.enum member) stored)
    (hkind : p.kind = .scalar (.enum type)) (hnumeric : p.representation ≠ .string) :
    stored.sortKey = .number (Binary64.ofInt member.toInt) ∧
      (p.representation ≠ .int64 → -2 ^ 31 ≤ member.toInt ∧ member.toInt < 2 ^ 31) := by
  have hscalar : p.scalarKind = .enum type := congrArg PropertyKind.scalarKind hkind
  have hencode := h.encodeScalar hkind
  rw [encodeScalar_enum hscalar] at hencode
  unfold encodeEnum at hencode
  split at hencode
  · next htext => exact absurd htext hnumeric
  · next hwide =>
    cases hencode
    exact ⟨by rw [Bson.sortKey], fun hnarrow ↦ absurd hwide hnarrow⟩
  · have hrange : -2 ^ 31 ≤ member.toInt ∧ member.toInt < 2 ^ 31 := by
      obtain ⟨narrow, rfl⟩ := Numeral.toBson_int32 hencode
      have hread := h.read hkind (.enum type member) (by simp)
      rw [decodeScalar_enum hscalar] at hread
      change ((Numeral.integer (Int64.ofInt narrow.toInt)).toInt64 p.permissions).map Value.enum =
        .ok (.enum member) at hread
      rw [Numeral.toInt64_int32] at hread
      cases hread
      exact Numeral.range_int32 narrow
    exact ⟨Numeral.sortKey_integer hencode fun _ ↦ hrange, fun _ ↦ hrange⟩

end Property.Lossless

/-! ## Decimals -/

namespace Property.Lossless

variable {p : Property} {stored : Bson} {number : Decimal}

/-- A decimal that is stored as a whole number is one. -/
theorem sortKey_decimal_whole (h : p.Lossless (.decimal number) stored)
    (hkind : p.kind = .scalar .decimal)
    (hwhole : p.representation = .int32 ∨ p.representation = .int64) :
    ∃ whole, number.IsWhole whole ∧ stored.sortKey = .number (Binary64.ofInt whole) ∧
      (p.representation = .int32 → -2 ^ 31 ≤ whole ∧ whole < 2 ^ 31) := by
  have hscalar : p.scalarKind = .decimal := congrArg PropertyKind.scalarKind hkind
  have hencode := h.encodeScalar hkind
  obtain ⟨read, hread, hequal⟩ := h.decodeScalar hkind (.decimal number)
  rw [encodeScalar_decimal hscalar, encodeNumber, if_neg (by rcases hwhole with h | h <;> simp [h])]
    at hencode
  rw [decodeScalar_decimal hscalar] at hread
  rcases hwhole with hwhole | hwhole
  · rw [hwhole] at hencode
    obtain ⟨whole, rfl⟩ := Numeral.toBson_int32 hencode
    rw [decodeNumber_int32, hscalar] at hread
    change Except.ok (Value.decimal (Decimal.ofInt (Int64.ofInt whole.toInt).toInt)) = .ok read
      at hread
    cases hread
    have hlow := whole.le_toInt
    have hhigh := whole.toInt_lt
    rw [Numeral.toInt_int32] at hequal
    exact ⟨whole.toInt, Decimal.isWhole_of_numericEq (by omega) hequal, by rw [Bson.sortKey],
      fun _ ↦ ⟨hlow, hhigh⟩⟩
  · rw [hwhole] at hencode
    obtain ⟨whole, rfl⟩ := Numeral.toBson_int64 hencode
    rw [decodeNumber_int64, hscalar] at hread
    change Except.ok (Value.decimal (Decimal.ofInt whole.toInt)) = .ok read at hread
    cases hread
    have hlow := whole.le_toInt
    have hhigh := whole.toInt_lt
    exact ⟨whole.toInt, Decimal.isWhole_of_numericEq (by omega) hequal, by rw [Bson.sortKey],
      fun hnarrow ↦ by rw [hwhole] at hnarrow; cases hnarrow⟩

theorem sortKey_decimal_double (h : p.Lossless (.decimal number) stored)
    (hkind : p.kind = .scalar .decimal) (hdouble : p.representation = .double) :
    stored.sortKey = .number number.toBinary := by
  have hencode := h.encodeScalar hkind
  rw [encodeScalar_decimal (congrArg PropertyKind.scalarKind hkind), encodeNumber,
    if_neg (by simp [hdouble]), hdouble] at hencode
  obtain ⟨_, hnumber, rfl⟩ := Outcome.map_eq_ok.1 hencode
  unfold Numeral.toDouble at hnumber
  dsimp only at hnumber
  generalize number.toBinary = nearest at hnumber ⊢
  split at hnumber <;> cases hnumber
  rw [Bson.sortKey]

/-- Stored decimals are seen as their approximations. -/
theorem sortKey_decimal (h : p.Lossless (.decimal number) stored)
    (hkind : p.kind = .scalar .decimal) (htext : p.representation ≠ .string)
    (hnarrow : p.representation ≠ .int32) (hwide : p.representation ≠ .int64)
    (hdouble : p.representation ≠ .double) :
    stored.sortKey = .number number.approximation := by
  have hscalar : p.scalarKind = .decimal := congrArg PropertyKind.scalarKind hkind
  have hform : p.representation.numberForm?.getD p.scalarKind.numberForm = .decimal := by
    rw [hscalar]
    cases hrepresentation : p.representation with
    | string => exact absurd hrepresentation htext
    | int32 => exact absurd hrepresentation hnarrow
    | int64 => exact absurd hrepresentation hwide
    | double => exact absurd hrepresentation hdouble
    | _ => rfl
  have hencode := h.encodeScalar hkind
  rw [encodeScalar_decimal hscalar, encodeNumber, if_neg htext, hform] at hencode
  cases hencode
  rw [Bson.sortKey, Decimal128.approximate?_ofDecimal]

end Property.Lossless

end DocMapping
