import DocMapping.Number.Binary64
import Mathlib.Data.Nat.Log
import Mathlib.Tactic.Ring

/-!
# Exact Binary Numbers

A quotient with no more significant bits than the format is not rounded.  Whole numbers up to
`2 ^ 53` are such quotients, so that none of them is read as another one.  Beyond negative zeros and
patterns that are not a number, numbers are equal only if all their bits are.
-/

namespace DocMapping

theorem Rounding.halfEven_mul (quotient : Nat) {denominator : Nat} (h : 0 < denominator) :
    halfEven (quotient * denominator) denominator = quotient := by
  unfold halfEven
  rw [Nat.mul_div_cancel quotient h, Nat.mul_mod_left]
  refine if_neg ?_
  omega

namespace Binary64

/-! ## Bits -/

theorem eq_of_magnitudeBits {x y : Binary64} (hsign : x.negative = y.negative)
    (hbits : x.magnitudeBits = y.magnitudeBits) : x = y := by
  unfold magnitudeBits at hbits
  have hexponent : x.exponent = y.exponent := Fin.ext (by omega)
  have hfraction : x.fraction = y.fraction := Fin.ext (by omega)
  cases x
  congr

/-- The total order tells all bit patterns apart. -/
theorem rank_inj {x y : Binary64} : x.rank = y.rank ↔ x = y := by
  refine ⟨fun h ↦ ?_, fun h ↦ by rw [h]⟩
  unfold rank at h
  cases hx : x.negative <;> cases hy : y.negative <;>
    simp only [hx, hy, if_true, if_false, Bool.false_eq_true] at h
  · exact eq_of_magnitudeBits (hx.trans hy.symm) (by omega)
  · omega
  · omega
  · exact eq_of_magnitudeBits (hx.trans hy.symm) (by omega)

theorem magnitudeBits_of_isZero {x : Binary64} (h : x.isZero = true) : x.magnitudeBits = 0 := by
  obtain ⟨hexponent, hfraction⟩ := of_decide_eq_true h
  unfold magnitudeBits
  rw [hexponent, hfraction, Nat.zero_mul]

/-- Numbers are equal if they are both zero or have the same bits. -/
theorem numericEq_iff_bits {x y : Binary64} :
    x.numericEq y = true ↔ x.isNaN = false ∧ y.isNaN = false ∧
      (x.isZero = true ∧ y.isZero = true ∨ x = y) := by
  unfold numericEq compare?
  cases hx : x.isNaN
  case true => simp
  cases hy : y.isNaN
  case true => simp
  simp only [Bool.or_self, Bool.false_eq_true, if_false, true_and, beq_iff_eq]
  split
  · next hzeros => exact iff_of_true rfl (.inl (Bool.and_eq_true_iff.1 hzeros))
  · next hzeros =>
    rw [or_iff_right fun h ↦ hzeros (Bool.and_eq_true_iff.2 h)]
    refine ⟨fun h ↦ ?_, fun h ↦ ?_⟩
    · cases hs : x.negative <;> cases ho : y.negative <;>
        simp only [hs, ho, Option.some.injEq] at h
      · exact eq_of_magnitudeBits (hs.trans ho.symm) (Std.compare_eq_iff_eq.1 h)
      · cases h
      · cases h
      · exact eq_of_magnitudeBits (hs.trans ho.symm) (Std.compare_eq_iff_eq.1 h).symm
    · rw [h]
      cases y.negative <;> simp

theorem numericEq_symm {x y : Binary64} (h : x.numericEq y = true) :
    y.numericEq x = true := by
  obtain ⟨hx, hy, h⟩ := numericEq_iff_bits.1 h
  exact numericEq_iff_bits.2 ⟨hy, hx, h.imp And.symm Eq.symm⟩

theorem numericEq_comm (x y : Binary64) : x.numericEq y = y.numericEq x :=
  Bool.eq_iff_iff.2 ⟨numericEq_symm, numericEq_symm⟩

theorem numericEq_trans {x y z : Binary64} (hxy : x.numericEq y = true)
    (hyz : y.numericEq z = true) : x.numericEq z = true := by
  obtain ⟨hx, -, hxy⟩ := numericEq_iff_bits.1 hxy
  obtain ⟨-, hz, hyz⟩ := numericEq_iff_bits.1 hyz
  refine numericEq_iff_bits.2 ⟨hx, hz, ?_⟩
  rcases hxy with ⟨hxzero, hyzero⟩ | rfl
  · rcases hyz with ⟨-, hzzero⟩ | rfl
    · exact .inl ⟨hxzero, hzzero⟩
    · exact .inl ⟨hxzero, hyzero⟩
  · exact hyz

/-- The only pattern of its number: a number, and not the negative zero. -/
def IsCanonical (x : Binary64) : Prop :=
  x.isNaN = false ∧ (x.isZero = true → x.negative = false)

/-- Canonical patterns are equal as numbers only if they are the same. -/
theorem numericEq_iff {x y : Binary64} (hx : x.IsCanonical) (hy : y.IsCanonical) :
    x.numericEq y = true ↔ x = y := by
  rw [numericEq_iff_bits, and_iff_right hx.1, and_iff_right hy.1, or_iff_right_iff_imp]
  rintro ⟨hxzero, hyzero⟩
  refine eq_of_magnitudeBits ((hx.2 hxzero).trans (hy.2 hyzero).symm) ?_
  rw [magnitudeBits_of_isZero hxzero, magnitudeBits_of_isZero hyzero]

/-! ## Exact quotients -/

section

variable {numerator denominator significand place : Nat}

/-- A quotient of 53 significant bits is not rounded. -/
theorem ofRatio_exact (hdenominator : 0 < denominator)
    (hvalue : numerator * 2 ^ 1074 = significand * 2 ^ place * denominator)
    (hlow : 2 ^ 52 ≤ significand) (hhigh : significand < 2 ^ 53) (hplace : place ≤ 2045)
    (negative : Bool) :
    ofRatio negative numerator denominator =
      ⟨negative, Fin.ofNat 2048 (place + 1), lowBits 52 significand⟩ := by
  unfold ofRatio
  generalize numerator * 2 ^ 1074 = scaled at hvalue ⊢
  have hpower : 0 < 2 ^ place := Nat.two_pow_pos place
  have hlog : (significand * 2 ^ place).log2 = 52 + place := by
    rw [Nat.log2_eq_iff (Nat.mul_ne_zero (by omega) hpower.ne')]
    constructor
    · rw [Nat.pow_add]
      exact Nat.mul_le_mul_right _ hlow
    · rw [Nat.add_right_comm, Nat.pow_add]
      exact Nat.mul_lt_mul_of_pos_right hhigh hpower
  have hround : Rounding.halfEven scaled (denominator * 2 ^ place) = significand := by
    rw [hvalue, Nat.mul_assoc, Nat.mul_comm (2 ^ place)]
    exact Rounding.halfEven_mul significand (Nat.mul_pos hdenominator hpower)
  have hquotient : scaled / denominator = significand * 2 ^ place := by
    rw [hvalue, Nat.mul_div_cancel _ hdenominator]
  have hfits : place * 2 ^ 52 + significand < 2047 * 2 ^ 52 := by omega
  have hexponent : (place * 2 ^ 52 + significand) / 2 ^ 52 = place + 1 := by omega
  have hfraction : (place * 2 ^ 52 + significand) % 2 ^ 52 = significand % 2 ^ 52 := by omega
  simp only [hquotient, hlog, Nat.add_sub_cancel_left, hround, hexponent]
  rw [if_pos hfits]
  congr 1
  exact Fin.ext hfraction

theorem magnitude_of_parts (negative : Bool) (hlow : 2 ^ 52 ≤ significand)
    (hhigh : significand < 2 ^ 53) (hplace : place ≤ 2045) :
    (Binary64.mk negative (Fin.ofNat 2048 (place + 1)) (lowBits 52 significand)).magnitude =
      significand * 2 ^ place := by
  have hexponent : (Fin.ofNat 2048 (place + 1)).val = place + 1 := by
    rw [Fin.val_ofNat, Nat.mod_eq_of_lt (by omega)]
  unfold magnitude Binary64.significand Binary64.place
  simp only [hexponent, val_lowBits]
  rw [if_neg (by omega), Nat.add_sub_cancel]
  congr 1
  omega

end

/-! ## Whole numbers -/

/-- A whole number up to `2 ^ 53`, scaled to 53 significant bits. -/
theorem exists_significand {number : Nat} (hpos : 0 < number) (hle : number ≤ 2 ^ 53)
    (scale : Nat) :
    ∃ significand place, number * 2 ^ (scale + 52) = significand * 2 ^ place ∧
      2 ^ 52 ≤ significand ∧ significand < 2 ^ 53 ∧ place ≤ scale + 53 := by
  rcases Nat.lt_or_eq_of_le hle with hlt | rfl
  · obtain ⟨hself, hnext⟩ := (Nat.log2_eq_iff (k := number.log2) hpos.ne').1 rfl
    have hlog : number.log2 ≤ 52 := by
      have hbits := (Nat.log2_lt hpos.ne').2 hlt
      omega
    obtain ⟨rest, hrest⟩ := Nat.exists_eq_add_of_le hlog
    refine ⟨number * 2 ^ rest, number.log2 + scale, ?_, ?_, ?_, by omega⟩
    · rw [Nat.mul_assoc, ← Nat.pow_add]
      exact congrArg (number * 2 ^ ·) (by omega)
    · calc
        2 ^ 52 = 2 ^ number.log2 * 2 ^ rest := by rw [← Nat.pow_add, ← hrest]
        _ ≤ number * 2 ^ rest := Nat.mul_le_mul_right _ hself
    · calc
        number * 2 ^ rest < 2 ^ (number.log2 + 1) * 2 ^ rest :=
          Nat.mul_lt_mul_of_pos_right hnext (Nat.two_pow_pos rest)
        _ = 2 ^ 53 := by
          rw [← Nat.pow_add]
          congr 1
          omega
  · refine ⟨2 ^ 52, scale + 53, ?_, le_rfl, by omega, le_rfl⟩
    rw [← Nat.pow_add, ← Nat.pow_add]
    exact congrArg (2 ^ ·) (by omega)

theorem ofRatio_zero (negative : Bool) : ofRatio negative 0 1 = zero negative := by
  unfold ofRatio
  rw [Nat.zero_mul]
  rfl

theorem ofRatio_whole {number : Nat} (h : number ≤ 2 ^ 53) (negative : Bool) :
    (ofRatio negative number 1).magnitude = number * 2 ^ 1074 ∧
      (ofRatio negative number 1).negative = negative := by
  rcases Nat.eq_zero_or_pos number with rfl | hpos
  · rw [ofRatio_zero, Nat.zero_mul]
    exact ⟨rfl, rfl⟩
  · obtain ⟨significand, place, hvalue, hlow, hhigh, hplace⟩ := exists_significand hpos h 1022
    have hrange : place ≤ 2045 := by omega
    rw [ofRatio_exact Nat.one_pos (by rw [hvalue, Nat.mul_one]) hlow hhigh hrange, hvalue]
    exact ⟨magnitude_of_parts negative hlow hhigh hrange, rfl⟩

/-- A whole number of no more than 53 bits is held exactly. -/
theorem units_ofInt {number : Int} (h : number.natAbs ≤ 2 ^ 53) :
    (ofInt number).units = number * (2 ^ 1074 : Nat) := by
  obtain ⟨hmagnitude, hsign⟩ := ofRatio_whole h (decide (number < 0))
  unfold ofInt units
  rw [hmagnitude, hsign]
  generalize 2 ^ 1074 = unit
  rcases lt_or_ge number 0 with hneg | hpos
  · rw [if_pos (decide_eq_true hneg), Nat.cast_mul, ← Int.neg_mul,
      Int.ofNat_natAbs_of_nonpos hneg.le, Int.neg_neg]
  · rw [if_neg (by simpa using hpos), Nat.cast_mul, Int.natAbs_of_nonneg hpos]

theorem ofInt_inj {a b : Int} (ha : a.natAbs ≤ 2 ^ 53) (hb : b.natAbs ≤ 2 ^ 53) :
    ofInt a = ofInt b ↔ a = b := by
  refine ⟨fun h ↦ ?_, fun h ↦ by rw [h]⟩
  have hunits := congrArg units h
  rw [units_ofInt ha, units_ofInt hb] at hunits
  have hunit (scale : Nat) : ((2 ^ scale : Nat) : Int) ≠ 0 :=
    Int.natCast_ne_zero.2 (Nat.two_pow_pos scale).ne'
  exact Int.eq_of_mul_eq_mul_right (hunit 1074) hunits

end Binary64

end DocMapping
