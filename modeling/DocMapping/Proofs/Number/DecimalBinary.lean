import DocMapping.Number.DecimalBinary
import DocMapping.Proofs.Number.Nearest

/-!
# Decimals and Doubles of One Number

A whole double of no more than 96 bits is converted to the decimal of the same number, and back.  Of
other numbers neither conversion is exact, and a decimal and a double are a pair only if each of them
is converted to the other.
-/

namespace DocMapping.Decimal

variable {d : Decimal} {x y : Binary64} {whole power : Int} {count coefficient : Nat}

/-! ## From doubles -/

/-- A number that is divided by a power of two is whole again. -/
theorem absorbFives_mul (count coefficient : Nat) (power : Int) :
    absorbFives count (coefficient * 2 ^ count) power = (coefficient, power + count) := by
  induction count generalizing power with
  | zero => simp [absorbFives]
  | succ count ih =>
    have heven : coefficient * 2 ^ (count + 1) = coefficient * 2 ^ count * 2 := by ring
    rw [absorbFives, heven, if_pos (Nat.mul_mod_left ..), Nat.mul_div_cancel _ (by decide), ih]
    congr 1
    omega

/-- A number that is multiplied by a power of two is exact within the 96 bits. -/
theorem absorbTwos_mul (h : coefficient * 2 ^ count < 2 ^ 96) :
    absorbTwos count coefficient power = (coefficient * 2 ^ count, power - count) := by
  induction count generalizing coefficient power with
  | zero => simp [absorbTwos]
  | succ count ih =>
    have hdouble : coefficient * 2 ^ (count + 1) = coefficient * 2 * 2 ^ count := by ring
    rw [hdouble] at h ⊢
    have hroom : coefficient < 2 ^ 95 := by
      have hle := Nat.le_mul_of_pos_right (coefficient * 2) (Nat.two_pow_pos count)
      omega
    rw [absorbTwos, if_pos hroom, ih h]
    congr 1
    omega

theorem settle?_zero (coefficient : Nat) : settle? coefficient 0 = some (coefficient, 0) := rfl

/-- What a whole double of no more than 96 bits is worked out to. -/
theorem absorb_of_isWhole (h : x.IsWhole whole) (hwidth : whole.natAbs < 2 ^ 96) :
    (if (x.place : Int) - 1074 < 0 then
        absorbFives (-((x.place : Int) - 1074)).toNat x.significand ((x.place : Int) - 1074)
      else absorbTwos ((x.place : Int) - 1074).toNat x.significand ((x.place : Int) - 1074)) =
      (whole.natAbs, 0) := by
  have hmagnitude := h.magnitude.1
  unfold Binary64.magnitude at hmagnitude
  split
  · have hcoefficient {unit : Nat} (hunit : x.place < unit)
        (hvalue : x.significand * 2 ^ x.place = whole.natAbs * 2 ^ unit) :
        x.significand = whole.natAbs * 2 ^ (unit - x.place) := by
      refine Nat.eq_of_mul_eq_mul_right (Nat.two_pow_pos x.place) ?_
      rw [hvalue, Nat.mul_assoc, ← Nat.pow_add, Nat.sub_add_cancel hunit.le]
    have hcount : (-((x.place : Int) - 1074)).toNat = 1074 - x.place := by omega
    rw [hcount, hcoefficient (by omega) hmagnitude, absorbFives_mul]
    congr 1
    omega
  · have hcoefficient {unit : Nat} (hunit : unit ≤ x.place)
        (hvalue : x.significand * 2 ^ x.place = whole.natAbs * 2 ^ unit) :
        x.significand * 2 ^ (x.place - unit) = whole.natAbs := by
      refine Nat.eq_of_mul_eq_mul_right (Nat.two_pow_pos unit) ?_
      rw [← hvalue, Nat.mul_assoc, ← Nat.pow_add, Nat.sub_add_cancel hunit]
    have hcount : ((x.place : Int) - 1074).toNat = x.place - 1074 := by omega
    have hpower : (x.place : Int) - 1074 - (x.place - 1074 : Nat) = 0 := by omega
    replace hcoefficient := hcoefficient (by omega) hmagnitude
    rw [hcount, absorbTwos_mul (by rwa [hcoefficient]), hcoefficient, hpower]

theorem ofBinary?_of_isWhole (h : x.IsWhole whole) (hwidth : whole.natAbs < 2 ^ 96) :
    ∃ d, ofBinary? x = some d ∧ d.signedCoefficient = whole ∧ d.scale = 0 := by
  obtain ⟨hmagnitude, hsign⟩ := h.magnitude
  have hfinite : x.isFinite = true := decide_eq_true h.finite
  have hwide {unit : Nat} (hvalue : x.magnitude = whole.natAbs * 2 ^ unit) :
      ¬2 ^ (unit + 96) ≤ x.magnitude := by
    rw [hvalue, Nat.pow_add, Nat.mul_comm whole.natAbs]
    exact Nat.not_le.2 (Nat.mul_lt_mul_of_pos_left hwidth (Nat.two_pow_pos unit))
  unfold ofBinary?
  rw [hfinite, if_neg (not_or.2 ⟨by decide, hwide hmagnitude⟩)]
  cases hzero : x.isZero with
  | true =>
    rw [h.isZero_iff.1 hzero]
    refine ⟨_, if_pos rfl, ?_, rfl⟩
    unfold signedCoefficient
    cases x.negative <;> rfl
  | false =>
    refine ⟨⟨x.negative, ⟨whole.natAbs, hwidth⟩, 0⟩, ?_, hsign, rfl⟩
    rw [if_neg Bool.false_ne_true]
    dsimp only
    rw [absorb_of_isWhole h hwidth]
    dsimp only
    rw [settle?_zero]
    exact dif_pos ⟨hwidth, Nat.zero_lt_succ 28⟩

/-- Wider doubles have no decimal. -/
theorem natAbs_lt_of_ofBinary? (h : x.IsWhole whole) (hd : ofBinary? x = some d) :
    whole.natAbs < 2 ^ 96 := by
  have hwide {unit : Nat} (hvalue : x.magnitude = whole.natAbs * 2 ^ unit)
      (hless : ¬2 ^ (unit + 96) ≤ x.magnitude) : whole.natAbs < 2 ^ 96 := by
    rw [hvalue, Nat.pow_add, Nat.mul_comm whole.natAbs] at hless
    exact Nat.lt_of_mul_lt_mul_left (Nat.not_le.1 hless)
  unfold ofBinary? at hd
  split at hd
  · cases hd
  · next hnarrow => exact hwide h.magnitude.1 (not_or.1 hnarrow).2

/-- The sign of zero is lost in a decimal of it. -/
theorem any_ofBinary?_congr (h : x.numericEq y = true) (d : Decimal) :
    (ofBinary? x).any (·.numericEq d) = (ofBinary? y).any (·.numericEq d) := by
  obtain ⟨-, -, ⟨hx, hy⟩ | rfl⟩ := Binary64.numericEq_iff_bits.1 h
  · obtain ⟨a, ha, hvalue, hscale⟩ := ofBinary?_of_isWhole (Binary64.isWhole_zero hx) (by decide)
    obtain ⟨b, hb, hvalue', hscale'⟩ := ofBinary?_of_isWhole (Binary64.isWhole_zero hy) (by decide)
    rw [ha, hb, Option.any_some, Option.any_some, Bool.eq_iff_iff, numericEq_iff, numericEq_iff,
      hvalue, hvalue', hscale, hscale']
  · rfl

/-! ## To doubles -/

theorem toBinary_of_scale (h : d.scale = 0) : d.toBinary = Binary64.ofInt d.signedCoefficient := by
  unfold toBinary
  exact if_pos (congrArg Fin.val h)

theorem isZero_toBinary (h : d.coefficient.val = 0) : d.toBinary.isZero = true := by
  have hall : ∀ (negative : Bool) (scale : Fin 29),
      (Decimal.mk negative 0 scale).toBinary.isZero = true := by decide +kernel
  have hzero : d = ⟨d.negative, 0, d.scale⟩ := by
    rw [← Fin.ext (a := d.coefficient) (b := 0) h]
  rw [hzero]
  exact hall _ _

/-- Zero has no sign among the doubles that equal it. -/
theorem numericEq_toBinary_unsignZero (d : Decimal) :
    d.unsignZero.toBinary.numericEq x = d.toBinary.numericEq x := by
  rcases Nat.eq_zero_or_pos d.coefficient.val with hzero | hpos
  · have hequal : d.unsignZero.toBinary.numericEq d.toBinary = true :=
      Binary64.numericEq_of_isZero (isZero_toBinary hzero) (isZero_toBinary hzero)
    exact Bool.eq_iff_iff.2 ⟨Binary64.numericEq_trans (Binary64.numericEq_symm hequal),
      Binary64.numericEq_trans hequal⟩
  · have hsame : d.unsignZero = d := by
      unfold unsignZero
      rw [bne_iff_ne.2 hpos.ne', Bool.and_true]
    rw [hsame]

/-! ## Pairs -/

/-- The decimal and the double are each converted to the other one. -/
def Pairs (d : Decimal) (x : Binary64) : Prop :=
  d.toBinary.numericEq x = true ∧ (ofBinary? x).any (·.numericEq d) = true

theorem pairs_unsignZero : d.unsignZero.Pairs x ↔ d.Pairs x := by
  have hequal (e : Decimal) : e.numericEq d.unsignZero = e.numericEq d := by
    rw [Bool.eq_iff_iff, numericEq_iff, numericEq_iff, signedCoefficient_unsignZero]
    rfl
  unfold Pairs
  rw [numericEq_toBinary_unsignZero]
  simp only [hequal]

theorem pairs_of_isWhole (hscale : d.scale = 0) (h : x.IsWhole d.signedCoefficient) :
    d.Pairs x := by
  obtain ⟨e, he, hvalue, hscale'⟩ := ofBinary?_of_isWhole h d.natAbs_lt
  refine ⟨?_, ?_⟩
  · rw [toBinary_of_scale hscale]
    exact h.numericEq_ofInt.2
  · rw [he, Option.any_some, numericEq_iff, hvalue, hscale, hscale']

/-- A whole decimal is paired with the double of the same number only. -/
theorem pairs_iff_isWhole (hscale : d.scale = 0) (hwidth : d.signedCoefficient.natAbs ≤ 2 ^ 63) :
    d.Pairs x ↔ x.IsWhole d.signedCoefficient := by
  refine ⟨?_, pairs_of_isWhole hscale⟩
  rintro ⟨hnear, hback⟩
  obtain ⟨whole, hwhole, hbound⟩ := Binary64.exists_isWhole_ofInt hwidth
  rw [toBinary_of_scale hscale] at hnear
  have hx := hwhole.congr hnear
  obtain ⟨e, he, hvalue, hscale'⟩ := ofBinary?_of_isWhole hx (by omega)
  rw [he, Option.any_some, numericEq_iff, hvalue, hscale, hscale'] at hback
  rwa [← Int.eq_of_mul_eq_mul_right (by decide) hback]

end DocMapping.Decimal
