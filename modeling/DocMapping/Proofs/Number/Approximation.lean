import DocMapping.Number.Decimal128
import DocMapping.Proofs.Number.Decimal
import DocMapping.Proofs.Number.Monotone

/-!
# Approximations of Stored Decimals

For the order, a stored decimal number is taken as a double: its coefficient, rounded, times a rounded
power of ten, rounded again.  Since the powers of ten are not exact, this need not be the nearest
double; for whole numbers, where the power is one, it is.
-/

namespace DocMapping

/-! ## Products -/

namespace Binary64

variable {x y : Binary64}

theorem exponent_lt (h : x.magnitudeBits < 2047 * 2 ^ 52) : x.exponent.val < 2047 := by
  unfold magnitudeBits at h
  omega

theorem isNaN_of_finite (h : x.exponent.val < 2047) : x.isNaN = false :=
  decide_eq_false fun hnan ↦ by omega

theorem isInfinite_of_finite (h : x.exponent.val < 2047) : x.isInfinite = false :=
  decide_eq_false fun hinfinite ↦ by omega

theorem hasFraction_of_magnitude {whole : Nat} (h : x.magnitude = whole * 2 ^ 1074) :
    x.hasFraction = false := by
  unfold hasFraction
  rw [h, Nat.mul_mod_left, bne_self_eq_false, Bool.and_false]

theorem truncateInto_of_magnitude {whole : Nat} {lower upper : Int}
    (hfinite : x.exponent.val < 2047) (h : x.magnitude = whole * 2 ^ 1074) :
    x.truncateInto lower upper =
      max lower (min upper (if x.negative then -(whole : Int) else whole)) := by
  have hunit (scale : Nat) : 0 < 2 ^ scale := Nat.two_pow_pos scale
  have hwhole : x.magnitude / 2 ^ 1074 = whole := by
    rw [h]
    exact Nat.mul_div_cancel _ (hunit 1074)
  unfold truncateInto
  rw [isNaN_of_finite hfinite, isInfinite_of_finite hfinite, if_neg Bool.false_ne_true,
    if_neg Bool.false_ne_true, hwhole]

theorem mul_finite (hx : x.exponent.val < 2047) (hy : y.exponent.val < 2047) :
    x.mul y = ofRatio (x.negative != y.negative) (x.magnitude * y.magnitude)
      (2 ^ 1074 * 2 ^ 1074) := by
  unfold mul propagated
  simp only [isNaN_of_finite hx, isNaN_of_finite hy, isInfinite_of_finite hx,
    isInfinite_of_finite hy, Bool.false_eq_true, if_false, Bool.or_self]

/-- Numbers of greater bits have greater magnitudes. -/
theorem magnitude_mono (h : x.magnitudeBits ≤ y.magnitudeBits) : x.magnitude ≤ y.magnitude := by
  unfold magnitudeBits at h
  have hx := x.fraction.isLt
  have hy := y.fraction.isLt
  unfold magnitude significand place
  rcases Nat.lt_trichotomy x.exponent.val y.exponent.val with hlt | heq | hgt
  · have hlow : (if x.exponent.val = 0 then x.fraction.val else 2 ^ 52 + x.fraction.val) *
        2 ^ (x.exponent.val - 1) ≤ 2 ^ 52 * 2 ^ (y.exponent.val - 1) := by
      split
      · next hzero =>
        rw [hzero]
        calc
          x.fraction.val * 2 ^ (0 - 1) = x.fraction.val := Nat.mul_one _
          _ ≤ 2 ^ 52 * 1 := by omega
          _ ≤ 2 ^ 52 * 2 ^ (y.exponent.val - 1) := Nat.mul_le_mul_left _ Nat.one_le_two_pow
      · obtain ⟨step, hstep⟩ : ∃ step, y.exponent.val - 1 = x.exponent.val - 1 + (step + 1) :=
          ⟨y.exponent.val - x.exponent.val - 1, by omega⟩
        calc
          (2 ^ 52 + x.fraction.val) * 2 ^ (x.exponent.val - 1) ≤
              2 ^ 52 * 2 ^ (step + 1) * 2 ^ (x.exponent.val - 1) := by
            refine Nat.mul_le_mul_right _ ?_
            calc
              2 ^ 52 + x.fraction.val ≤ 2 ^ 52 * 2 ^ 1 := by omega
              _ ≤ 2 ^ 52 * 2 ^ (step + 1) :=
                Nat.mul_le_mul_left _ (Nat.pow_le_pow_right Nat.two_pos (by omega))
          _ = 2 ^ 52 * 2 ^ (y.exponent.val - 1) := by
            rw [Nat.mul_assoc, ← Nat.pow_add, hstep, Nat.add_comm]
    refine hlow.trans ?_
    rw [if_neg (by omega)]
    exact Nat.mul_le_mul_right _ (Nat.le_add_right _ _)
  · rw [heq]
    refine Nat.mul_le_mul_right _ ?_
    split <;> omega
  · omega

theorem magnitude_ofRatio_mono {a b : Nat} (h : a ≤ b) (first second : Bool) :
    (ofRatio first a 1).magnitude ≤ (ofRatio second b 1).magnitude := by
  refine magnitude_mono ?_
  rw [magnitudeBits_ofRatio, magnitudeBits_ofRatio]
  have hbits := packedBits_mono (Nat.mul_le_mul_right (2 ^ 1074) h) 1
  omega

/-- Whole numbers of 96 bits are far from infinity. -/
theorem ofInt_finite {number : Int} (h : number.natAbs < 2 ^ 96) :
    (ofInt number).exponent.val < 2047 := by
  refine exponent_lt ?_
  have hlast : packedBits (2 ^ 96 * 2 ^ 1074) 1 < 2047 * 2 ^ 52 := by decide +kernel
  have hbits := packedBits_mono (Nat.mul_le_mul_right (2 ^ 1074) h.le) 1
  unfold ofInt
  rw [magnitudeBits_ofRatio]
  omega

theorem negative_ofInt (number : Int) : (ofInt number).negative = decide (number < 0) :=
  negative_ofRatio ..

theorem ofNat_one : ofNat 1 = ⟨false, 1023, 0⟩ := by decide +kernel

theorem mul_one_of_normal (hnormal : 0 < x.exponent.val) (hfinite : x.exponent.val < 2047) :
    x.mul (ofNat 1) = x := by
  have hone : (ofNat 1).magnitude = 2 ^ 1074 := by decide +kernel
  have hsignificand : x.significand = 2 ^ 52 + x.fraction.val := if_neg (by omega)
  have hfraction := x.fraction.isLt
  rw [mul_finite hfinite (by rw [ofNat_one]; decide), hone]
  have hunit (scale : Nat) : 0 < 2 ^ scale * 2 ^ scale :=
    Nat.mul_pos (Nat.two_pow_pos _) (Nat.two_pow_pos _)
  have hvalue : x.magnitude * 2 ^ 1074 * 2 ^ 1074 =
      x.significand * 2 ^ x.place * (2 ^ 1074 * 2 ^ 1074) := by
    rw [magnitude, Nat.mul_assoc]
  have hplace : x.place ≤ 2045 := by
    unfold place
    omega
  have hexponent : Fin.ofNat 2048 (x.place + 1) = x.exponent := by
    refine Fin.ext ?_
    rw [Fin.val_ofNat, place]
    omega
  have hlow : lowBits 52 x.significand = x.fraction := by
    refine Fin.ext ?_
    rw [val_lowBits, hsignificand]
    omega
  rw [ofRatio_exact (hunit 1074) hvalue (by omega) (by omega) hplace, hexponent, hlow, ofNat_one,
    Bool.bne_false]

end Binary64

/-! ## Decimals -/

namespace Decimal

/-- The double that a decimal number is taken as once it is stored. -/
def approximation (d : Decimal) : Binary64 :=
  (Binary64.ofInt d.signedCoefficient).mul ((Binary64.ofNat 10).pow (-(d.scale.val : Int)))

/-- A whole number is taken as the nearest double. -/
theorem approximation_of_scale {d : Decimal} (h : d.scale = 0) :
    d.approximation = Binary64.ofInt d.signedCoefficient := by
  have hpower : (Binary64.ofNat 10).pow (-((0 : Fin 29).val : Int)) = Binary64.ofNat 1 := by
    decide +kernel
  unfold approximation
  rw [h, hpower]
  rcases Nat.eq_zero_or_pos d.signedCoefficient.natAbs with hzero | hpos
  · rw [Int.natAbs_eq_zero.1 hzero]
    decide +kernel
  · have hone : 1 ≤ d.signedCoefficient.natAbs := hpos
    refine Binary64.mul_one_of_normal ?_ (Binary64.ofInt_finite d.natAbs_lt)
    have hfirst : 1023 * 2 ^ 52 ≤ Binary64.packedBits (1 * 2 ^ 1074) 1 := by decide +kernel
    have hbits := Binary64.packedBits_mono (Nat.mul_le_mul_right (2 ^ 1074) hone) 1
    have hmagnitude := Binary64.magnitudeBits_ofRatio (decide (d.signedCoefficient < 0))
      d.signedCoefficient.natAbs 1
    unfold Binary64.ofInt
    unfold Binary64.magnitudeBits at hmagnitude
    have hfraction := (Binary64.ofRatio (decide (d.signedCoefficient < 0))
      d.signedCoefficient.natAbs 1).fraction.isLt
    omega

end Decimal

namespace Decimal128

/-- The parts of the bits of a decimal number. -/
theorem bits_ofDecimal (d : Decimal) : ∃ exponent, exponent + d.scale.val = 6176 ∧
    (ofDecimal d).bits.val =
      (if d.signedCoefficient < 0 then 1 else 0) * 2 ^ 127 + exponent * 2 ^ 113 +
        d.coefficient.val := by
  have hscale := d.scale.isLt
  have hcoefficient := d.coefficient.isLt
  have hsign := d.signedCoefficient_neg
  refine ⟨6176 - d.scale.val, by omega, ?_⟩
  unfold ofDecimal bias
  simp only [val_lowBits, hsign]
  split <;> omega

/-- The fields of a stored decimal number. -/
theorem fields_ofDecimal (d : Decimal) : (ofDecimal d).combination = 12 ∧
    (ofDecimal d).isLargeForm = false ∧
    (ofDecimal d).negative = decide (d.signedCoefficient < 0) ∧
    (ofDecimal d).coefficient = d.coefficient.val ∧
    (ofDecimal d).exponent = -(d.scale.val : Int) := by
  obtain ⟨biased, hbiased, hbits⟩ := bits_ofDecimal d
  have hscale := d.scale.isLt
  have hcoefficient := d.coefficient.isLt
  have hsign : (if d.signedCoefficient < 0 then 1 else 0) ≤ 1 := by split <;> omega
  have hlarge : (ofDecimal d).isLargeForm = false := by
    unfold isLargeForm
    rw [decide_eq_false]
    omega
  refine ⟨?_, hlarge, ?_, ?_, ?_⟩
  · unfold combination
    omega
  · unfold negative
    rw [decide_eq_decide, hbits]
    split <;> omega
  · rw [coefficient, hlarge, if_neg Bool.false_ne_true]
    omega
  · unfold exponent biasedExponent bias
    rw [hlarge, if_neg Bool.false_ne_true]
    omega

/-- What the order reads from a stored decimal number. -/
theorem approximate?_ofDecimal (d : Decimal) :
    (ofDecimal d).approximate? = some d.approximation := by
  obtain ⟨hcombination, hlarge, hnegative, hcoefficient, hexponent⟩ := fields_ofDecimal d
  unfold approximate? isNaN isInfinite
  rw [hcombination, hlarge, hnegative, hcoefficient, hexponent, ← d.natAbs_signedCoefficient]
  rfl

/-- A stored decimal number is read as it was, but for the sign of zero. -/
theorem toDecimal_ofDecimal (overflow truncation : Bool) (d : Decimal) :
    (ofDecimal d).toDecimal overflow truncation = .ok d.unsignZero := by
  obtain ⟨hcombination, -, hnegative, hcoefficient, hexponent⟩ := fields_ofDecimal d
  have hsign : (decide (d.signedCoefficient < 0) && d.coefficient.val != 0) =
      (d.negative && d.coefficient.val != 0) := by
    rw [Bool.eq_iff_iff]
    simp only [d.signedCoefficient_neg, Bool.and_eq_true, decide_eq_true_eq, bne_iff_ne, and_assoc,
      and_self]
  have hkept : dropDigits? truncation d.coefficient.val d.scale.val =
      some (d.coefficient.val, d.scale.val) := by
    have hscale := d.scale.isLt
    have hwidth := d.coefficient.isLt
    cases hplaces : d.scale.val with
    | zero => rfl
    | succ scale => exact if_neg (by omega)
  have hparts : Decimal.ofParts? (decide (d.signedCoefficient < 0)) d.coefficient.val d.scale.val =
      some d.unsignZero := by
    unfold Decimal.ofParts? Decimal.ofSigned? Decimal.unsignZero
    rw [dif_pos ⟨d.coefficient.isLt, d.scale.isLt⟩, Option.map_some, hsign]
  unfold toDecimal isNaN isInfinite
  rw [hcombination, hnegative, hcoefficient, hexponent]
  rw [show (-(d.scale.val : Int)).toNat = 0 by omega, Int.neg_neg, Int.toNat_natCast, appendZeros?]
  dsimp only
  rw [hkept]
  dsimp only
  rw [hparts]
  rfl

end Decimal128

end DocMapping
