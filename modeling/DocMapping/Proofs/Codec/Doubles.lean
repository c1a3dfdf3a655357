import DocMapping.Proofs.Codec.Legible
import DocMapping.Proofs.Number.DecimalBinary
import DocMapping.Proofs.Number.PlainText

/-!
# Doubles in Documents

A property of doubles that permits no loss reads an equal double from whatever it stored, unless a
decimal stands in between: one that was stored, or that its text is read as.  This decimal has fewer
digits than a double may need, and is then another double or none.  Whole numbers have no digits to
lose, but as a text they may be written as another number, while they are not too wide for a decimal.
-/

namespace DocMapping

/-! ## Numbers that are read -/

namespace Numeral

variable {permissions : Permissions} {x : Binary64} {m : Numeral} {form : NumberForm}

/-- The double that a number is taken as. -/
def nearest : Numeral → Binary64
  | integer value => Binary64.ofInt value.toInt
  | double value => value
  | decimal value => value.toBinary

theorem toDouble_eq_ok (htruncation : permissions.truncation = false) {read : Binary64} :
    m.toDouble permissions = .ok read ↔ m.IsDouble ∧ m.nearest = read := by
  have hexactly {number : Binary64} {exact : Bool} {fault : ConversionFault} :
      (if exact || permissions.truncation then .ok number else .error fault) = Except.ok read ↔
        exact = true ∧ number = read := by
    cases exact <;> simp [htruncation]
  unfold toDouble IsDouble nearest
  cases m with
  | integer value =>
    generalize Binary64.ofInt value.toInt = number
    exact hexactly.trans (and_congr_left' beq_iff_eq)
  | double value => simp
  | decimal value => exact hexactly

/-- The number is read as a double that equals another one. -/
def Keeps (permissions : Permissions) (m : Numeral) (x : Binary64) : Prop :=
  ∃ read, m.toDouble permissions = .ok read ∧ x.numericEq read = true

theorem keeps_iff (htruncation : permissions.truncation = false) :
    m.Keeps permissions x ↔ m.IsDouble ∧ m.nearest.numericEq x = true := by
  unfold Keeps
  simp only [toDouble_eq_ok htruncation, Binary64.numericEq_comm x]
  constructor
  · rintro ⟨read, ⟨hdouble, rfl⟩, hequal⟩
    exact ⟨hdouble, hequal⟩
  · rintro ⟨hdouble, hequal⟩
    exact ⟨_, ⟨hdouble, rfl⟩, hequal⟩

theorem keeps_double (htruncation : permissions.truncation = false) (hnan : x.isNaN = false) :
    (double x).Keeps permissions x :=
  (keeps_iff htruncation).2 ⟨trivial, Binary64.numericEq_iff_bits.2 ⟨hnan, hnan, .inr rfl⟩⟩

theorem keeps_decimal_iff (htruncation : permissions.truncation = false) {d : Decimal} :
    (decimal d).Keeps permissions x ↔ d.Pairs x := by
  rw [keeps_iff htruncation, and_comm]
  exact and_congr_right fun hequal ↦ iff_of_eq
    (congrArg (· = true) (Decimal.any_ofBinary?_congr hequal d))

theorem keeps_integer (htruncation : permissions.truncation = false) {number : Int64}
    (h : x.IsWhole number.toInt) : (integer number).Keeps permissions x := by
  obtain ⟨hwhole, hequal⟩ := h.numericEq_ofInt
  have hdouble : (integer number).IsDouble :=
    (Binary64.truncateInto_ofInt_eq_iff number.le_toInt number.toInt_lt).2 (.inl hwhole)
  exact (keeps_iff htruncation).2 ⟨hdouble, hequal⟩

/-- The greatest number of 64 bits is taken as a double, too, though it is none. -/
theorem keeps_integer_iff (htruncation : permissions.truncation = false) {number : Int64}
    (hlast : number.toInt ≠ 2 ^ 63 - 1) :
    (integer number).Keeps permissions x ↔ x.IsWhole number.toInt := by
  refine ⟨fun h ↦ ?_, keeps_integer htruncation⟩
  obtain ⟨hdouble, hequal⟩ := (keeps_iff htruncation).1 h
  have hwhole := (Binary64.truncateInto_ofInt_eq_iff number.le_toInt number.toInt_lt).1 hdouble
  exact (hwhole.resolve_right hlast).congr hequal

/-- A double that becomes a whole number of 64 bits is this number. -/
theorem isWhole_of_toInteger {lower upper whole : Int} (hoverflow : permissions.overflow = false)
    (htruncation : permissions.truncation = false) (hfinite : x.exponent.val < 2047)
    (hlow : -2 ^ 63 ≤ lower) (hhigh : upper < 2 ^ 63)
    (h : (double x).toInteger permissions lower upper = .ok whole) :
    x.IsWhole whole ∧ lower ≤ whole ∧ whole ≤ upper := by
  obtain ⟨number, hnumber, h⟩ := Outcome.bind_eq_ok.1 h
  obtain ⟨-, hfraction, htruncated⟩ := whole_iff.1 hnumber
  rw [hoverflow] at h
  split at h
  · next hrange =>
    cases h
    have hnone : x.hasFraction = false := by
      by_contra hsome
      rw [htruncation] at hfraction
      cases hfraction (Bool.not_eq_false _ ▸ hsome)
    obtain ⟨other, hother⟩ := Binary64.exists_isWhole hfinite hnone
    have hsame : max (-2 ^ 127) (min (2 ^ 127 - 1) other) = whole :=
      hother.truncateInto.symm.trans htruncated
    obtain rfl : other = whole := by omega
    exact ⟨hother, hrange⟩
  · cases h

/-- A double that was stored as a number is read as an equal one, unless it was stored as a decimal
that is not its pair. -/
theorem keeps_recast_iff (hoverflow : permissions.overflow = false)
    (htruncation : permissions.truncation = false) (hfinite : x.exponent.val < 2047)
    (h : (double x).recast permissions form = .ok m) :
    m.Keeps permissions x ↔
      ∀ d, form = .decimal → Decimal.ofBinary? x = some d → d.Pairs x := by
  cases form with
  | int32 =>
    obtain ⟨_, hnarrow, rfl⟩ := Outcome.map_eq_ok.1 h
    obtain ⟨whole, hwhole, rfl⟩ := Outcome.map_eq_ok.1 hnarrow
    obtain ⟨hx, hlow, hhigh⟩ := isWhole_of_toInteger hoverflow htruncation hfinite (by decide)
      (by decide) hwhole
    refine iff_of_true (keeps_integer htruncation ?_) fun d hform ↦ by cases hform
    rwa [toInt_int32, Int32.toInt_ofInt_of_le hlow (Int.lt_of_le_sub_one hhigh)]
  | int64 =>
    obtain ⟨_, hwide, rfl⟩ := Outcome.map_eq_ok.1 h
    obtain ⟨whole, hwhole, rfl⟩ := Outcome.map_eq_ok.1 hwide
    obtain ⟨hx, hlow, hhigh⟩ := isWhole_of_toInteger hoverflow htruncation hfinite (by decide)
      (by decide) hwhole
    refine iff_of_true (keeps_integer htruncation ?_) fun d hform ↦ by cases hform
    rwa [Int64.toInt_ofInt_of_le hlow (Int.lt_of_le_sub_one hhigh)]
  | double =>
    cases h
    exact iff_of_true (keeps_double htruncation (Binary64.isNaN_of_finite hfinite))
      fun d hform ↦ by cases hform
  | decimal =>
    obtain ⟨number, hnumber, rfl⟩ := Outcome.map_eq_ok.1 h
    have hstored : Decimal.ofBinary? x = some number := by
      unfold toDecimal at hnumber
      dsimp only at hnumber
      rw [hoverflow, Binary64.isNaN_of_finite hfinite] at hnumber
      split at hnumber
      · next hx =>
        cases hnumber
        exact hx
      · cases hnumber
    rw [keeps_decimal_iff htruncation, Decimal.pairs_unsignZero, hstored]
    simp

/-- The text of a double is read as an equal one, unless it is a decimal that is not its pair. -/
theorem keeps_plainText_iff (htruncation : permissions.truncation = false)
    (hfinite : x.exponent.val < 2047) (h : ofText? x.plainText = some m) :
    m.Keeps permissions x ↔ ∀ d, Decimal.ofText? x.plainText = some d → d.Pairs x := by
  unfold ofText? at h
  cases hinteger : integerOfText? x.plainText with
  | some number =>
    rw [hinteger] at h
    cases h
    have hlast := Binary64.toInt_ne_last hfinite hinteger
    have hlow := number.le_toInt
    have hhigh := number.toInt_lt
    obtain ⟨d, hd, hvalue, hscale⟩ := exists_decimal_of_integerOfText? hinteger
    have hpairs := Decimal.pairs_iff_isWhole (x := x) hscale (by omega)
    rw [hvalue] at hpairs
    simp only [hd, Option.some.injEq, forall_eq', hpairs]
    exact keeps_integer_iff htruncation hlast
  | none =>
    rw [hinteger] at h
    cases hdecimal : Decimal.ofText? x.plainText with
    | some d =>
      rw [hdecimal] at h
      cases h
      simp only [Option.some.injEq, forall_eq']
      exact keeps_decimal_iff htruncation
    | none =>
      rw [hdecimal, Binary64.ofText?_plainText hfinite] at h
      cases h
      exact iff_of_true (keeps_double htruncation (Binary64.isNaN_of_finite hfinite)) nofun

end Numeral

/-! ## Properties of doubles -/

namespace Property

variable {p : Property} {x : Binary64} {m : Numeral} {whole : Int} {stored : Bson}

theorem encode_double (hkind : p.kind = .scalar .double) (x : Binary64) :
    p.encode (.double x) = p.reporting (p.encodeNumber (.double x)) := by
  unfold encode encodeValue
  rw [hkind]
  dsimp only
  rw [encodeScalar_double (congrArg PropertyKind.scalarKind hkind)]

theorem encodeNumber_decimal128 (hform : p.representation = .decimal128) {d : Decimal}
    (h : Decimal.ofBinary? x = some d) :
    p.encodeNumber (.double x) = .ok (.decimal128 (.ofDecimal d)) := by
  have hdecimal : (Numeral.double x).toDecimal p.permissions = .ok d := by
    unfold Numeral.toDecimal
    dsimp only
    rw [h]
  unfold encodeNumber
  rw [hform, if_neg (by decide)]
  exact congrArg (Except.map fun number ↦ Bson.decimal128 (.ofDecimal number)) hdecimal

theorem decodeNumber_decimal128 (hkind : p.scalarKind = .double) {d : Decimal} {read : Binary64}
    (h : (Numeral.decimal d.unsignZero).toDouble p.permissions = .ok read) :
    p.decodeNumber (.decimal128 (.ofDecimal d)) = .ok (.double read) := by
  unfold decodeNumber readNumber
  rw [Numeral.ofBson?, Decimal128.toDecimal_ofDecimal, hkind]
  exact congrArg (Except.map Value.double) h

/-- The decimal that a double is stored as, or that its text is. -/
def storedDecimal? (p : Property) (x : Binary64) : Option Decimal :=
  match p.representation with
  | .decimal128 => Decimal.ofBinary? x
  | .string => Decimal.ofText? x.plainText
  | _ => none

/-- No decimal stands between the double and its stored form but its pair. -/
def KeepsDouble (p : Property) (x : Binary64) : Prop :=
  ∀ d, p.storedDecimal? x = some d → d.Pairs x

theorem keeps_storedNumber_iff (hkind : p.scalarKind = .double) (hoverflow : p.allowOverflow = false)
    (htruncation : p.allowTruncation = false) (hfinite : x.exponent.val < 2047)
    (h : p.storedNumber (.double x) = .ok m) : m.Keeps p.permissions x ↔ p.KeepsDouble x := by
  unfold storedNumber at h
  unfold KeepsDouble storedDecimal?
  rw [hkind] at h
  cases hrepresentation : p.representation with
  | string =>
    rw [hrepresentation, if_pos rfl] at h
    exact Numeral.keeps_plainText_iff htruncation hfinite (readText_eq_ok.1 h)
  | _ =>
    rw [hrepresentation, if_neg (by simp)] at h
    rw [Numeral.keeps_recast_iff hoverflow htruncation hfinite h]
    simp [Representation.numberForm?, ScalarKind.numberForm]

theorem keepsDouble_of_isWhole (h : x.IsWhole whole)
    (htext : p.representation = .string → whole.natAbs < 2 ^ 53 ∨ 2 ^ 96 < whole.natAbs) :
    p.KeepsDouble x := by
  unfold KeepsDouble storedDecimal?
  cases hrepresentation : p.representation with
  | string =>
    intro d hd
    obtain ⟨coefficient, hread, hnearest⟩ := h.decimalText
    obtain ⟨hvalue, hscale⟩ := Decimal.signedCoefficient_ofParts? (hread.symm.trans hd)
    have hwidth := d.natAbs_lt
    rcases htext hrepresentation with hnarrow | hwide
    · rw [h.eq_of_isNearest hnarrow hnearest, h.magnitude.2] at hvalue
      refine Decimal.pairs_of_isWhole (Fin.ext hscale) ?_
      rwa [hvalue]
    · have hcoefficient := h.le_of_isNearest hwide hnearest
      split at hvalue <;> omega
  | decimal128 =>
    intro d hd
    obtain ⟨e, he, hvalue, hscale⟩ :=
      Decimal.ofBinary?_of_isWhole h (Decimal.natAbs_lt_of_ofBinary? h hd)
    cases he.symm.trans hd
    refine Decimal.pairs_of_isWhole hscale ?_
    rwa [hvalue]
  | _ => exact fun d hd ↦ by cases hd

theorem structuralEq_double (hnan : x.isNaN = false) {read : Binary64} :
    (Value.double x).structuralEq (.double read) = true ↔ x.numericEq read = true := by
  rw [Value.structuralEq, Bool.or_eq_true, beq_iff_eq]
  refine or_iff_right_of_imp ?_
  rintro rfl
  exact Binary64.numericEq_iff_bits.2 ⟨hnan, hnan, .inr rfl⟩

/-- Without permissions, a finite double that is stored is read as an equal one exactly if no decimal
but its pair stands between.  Whole numbers are kept in every form, as a text if they have fewer than 54
bits or more than 96. -/
theorem decode_doubles (hkind : p.kind = .scalar .double) (hoverflow : p.allowOverflow = false)
    (htruncation : p.allowTruncation = false) (hfinite : x.isFinite = true)
    (h : p.encode (.double x) = .ok stored) :
    ((∃ read, p.decode stored = .ok read ∧ (Value.double x).structuralEq read = true) ↔
      p.KeepsDouble x) ∧
    ∀ whole, x.IsWhole whole →
      (p.representation = .string → whole.natAbs < 2 ^ 53 ∨ 2 ^ 96 < whole.natAbs) →
      p.KeepsDouble x := by
  refine ⟨?_, fun whole ↦ keepsDouble_of_isWhole⟩
  have hexponent : x.exponent.val < 2047 := of_decide_eq_true hfinite
  have hscalar : p.scalarKind = .double := congrArg PropertyKind.scalarKind hkind
  have hencode := encodeScalar_of_encode hkind h
  have hstored := ne_null_of_encodeScalar (by simp) hencode
  rw [encodeScalar_double hscalar] at hencode
  obtain ⟨m, hm, hread⟩ := readNumber_encodeNumber hencode
  have hvalue (read : Value) : p.decode stored = .ok read ↔
      ∃ number, m.toDouble p.permissions = .ok number ∧ Value.double number = read := by
    rw [decode_of_ne_null hkind hstored, decodeScalar_double hscalar, decodeNumber, hread, hscalar]
    exact Outcome.mapError_eq_ok.trans Outcome.map_eq_ok
  rw [← keeps_storedNumber_iff hscalar hoverflow htruncation hexponent hm]
  simp only [hvalue]
  constructor
  · rintro ⟨_, ⟨number, hnumber, rfl⟩, hequal⟩
    exact ⟨number, hnumber, (structuralEq_double (Binary64.isNaN_of_finite hexponent)).1 hequal⟩
  · rintro ⟨number, hnumber, hequal⟩
    exact ⟨_, ⟨number, hnumber, rfl⟩,
      (structuralEq_double (Binary64.isNaN_of_finite hexponent)).2 hequal⟩

/-! ### Two fractions -/

def share : Property := { plain "Share" (.scalar .double) with representation := .string }

def half : Binary64 := .ofBits 0x3fe0000000000000

theorem decode_doubles_half : share.encode (.double half) = .ok (.string "0.5") ∧
    ∃ read, share.decode (.string "0.5") = .ok read ∧
      (Value.double half).structuralEq read = true := by
  have htext : half.plainText = "0.5" := by decide +kernel
  have hdecimal : Decimal.ofText? "0.5" = some ⟨false, 5, 1⟩ := by decide +kernel
  have hencode : share.encode (.double half) = .ok (.string "0.5") := by
    rw [← htext]
    rfl
  have hkeeps : share.KeepsDouble half := by
    intro d hd
    change Decimal.ofText? half.plainText = some d at hd
    rw [htext, hdecimal] at hd
    cases hd
    exact ⟨by decide +kernel, by decide +kernel⟩
  exact ⟨hencode, (decode_doubles rfl rfl rfl rfl hencode).1.2 hkeeps⟩

def ratio : Property := { plain "Ratio" (.scalar .double) with representation := .decimal128 }

/-- The double nearest to three tenths. -/
def threeTenths : Binary64 := .ofBits 0x3fd3333333333333

/-- The double next to it. -/
def aboveThreeTenths : Binary64 := .ofBits 0x3fd3333333333334

/-- As a decimal, the one is stored without an error and read as the other. -/
theorem decode_aboveThreeTenths : ∃ stored, ratio.encode (.double aboveThreeTenths) = .ok stored ∧
    ratio.decode stored = .ok (.double threeTenths) ∧
    (Value.double aboveThreeTenths).structuralEq (.double threeTenths) = false := by
  have hstored : Decimal.ofBinary? aboveThreeTenths = some ⟨false, 3, 1⟩ := by decide +kernel
  have hnearest : (⟨false, 3, 1⟩ : Decimal).toBinary = threeTenths := by decide +kernel
  have hback : (Decimal.ofBinary? (⟨false, 3, 1⟩ : Decimal).toBinary).any
      (·.numericEq ⟨false, 3, 1⟩) = true := by decide +kernel
  have hsigned : (⟨false, 3, 1⟩ : Decimal).unsignZero = ⟨false, 3, 1⟩ := rfl
  have hread : (Numeral.decimal ⟨false, 3, 1⟩).toDouble ratio.permissions = .ok threeTenths :=
    (Numeral.toDouble_eq_ok rfl).2 ⟨hback, hnearest⟩
  rw [← hsigned] at hread
  refine ⟨.decimal128 (.ofDecimal ⟨false, 3, 1⟩), ?_, ?_, by decide +kernel⟩
  · rw [encode_double rfl, encodeNumber_decimal128 rfl hstored]
    rfl
  · rw [decode_of_ne_null rfl (by simp), decodeScalar_double rfl, decodeNumber_decimal128 rfl hread]
    rfl

end Property

end DocMapping
