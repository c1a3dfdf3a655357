import DocMapping.Proofs.Number.Approximation
import Mathlib.Algebra.Order.Field.Basic
import Mathlib.Data.Rat.Cast.Order
import Mathlib.Tactic.NormNum
import Mathlib.Tactic.Positivity
import Mathlib.Tactic.Ring

/-!
# Stored Decimals Are Read Exactly

The number that a pattern of 128 bits denotes is its coefficient times a power of ten.  It is read as
a decimal exactly when some decimal number equals it: zeros are appended or dropped until the
coefficient and the scale are in range, and without permissions nothing else happens.
-/

namespace DocMapping

/-! ## Denoted numbers -/

namespace Decimal

/-- The number that a decimal stands for. -/
def number (d : Decimal) : ℚ := d.signedCoefficient * 10 ^ (-(d.scale.val : ℤ))

end Decimal

namespace Decimal128

variable {d : Decimal128} {n : Decimal} {coefficient widened kept scale places count : Nat}

/-- The coefficient with the sign. -/
def signedCoefficient (d : Decimal128) : Int :=
  if d.negative then -(d.coefficient : Int) else d.coefficient

/-- The number that a finite pattern stands for. -/
def number (d : Decimal128) : ℚ := d.signedCoefficient * 10 ^ d.exponent

theorem natAbs_signedCoefficient (d : Decimal128) : d.signedCoefficient.natAbs = d.coefficient := by
  unfold signedCoefficient
  split <;> omega

/-- Equality of the numbers, brought to whole ones. -/
theorem number_eq_iff : n.number = d.number ↔
    n.signedCoefficient * 10 ^ (-d.exponent).toNat =
      d.signedCoefficient * 10 ^ d.exponent.toNat * 10 ^ n.scale.val := by
  have hsplit : d.exponent = (d.exponent.toNat : ℤ) - ((-d.exponent).toNat : ℤ) := by omega
  have hten : (10 : ℚ) ≠ 0 := by norm_num
  have hscale : (10 : ℚ) ^ n.scale.val ≠ 0 := pow_ne_zero _ hten
  have hdown : (10 : ℚ) ^ (-d.exponent).toNat ≠ 0 := pow_ne_zero _ hten
  have hnumber : d.number = d.signedCoefficient * 10 ^ d.exponent.toNat /
      10 ^ (-d.exponent).toNat := by
    unfold number
    conv_lhs => rw [hsplit, zpow_sub₀ hten, zpow_natCast, zpow_natCast, ← mul_div_assoc]
  have hdecimal : n.number = n.signedCoefficient / 10 ^ n.scale.val := by
    unfold Decimal.number
    rw [zpow_neg, zpow_natCast, div_eq_mul_inv]
  rw [hnumber, hdecimal, div_eq_div_iff hscale hdown]
  exact_mod_cast Iff.rfl

/-! ## Appending and dropping zeros -/

theorem appendZeros?_eq_some : appendZeros? count coefficient = some widened ↔
    widened = coefficient * 10 ^ count ∧ (count = 0 ∨ widened < 2 ^ 96) := by
  induction count generalizing coefficient with
  | zero =>
    unfold appendZeros?
    rw [pow_zero, mul_one, Option.some_inj, eq_comm]
    simp
  | succ count ih =>
    have hpower : coefficient * 10 ^ (count + 1) = coefficient * 10 * 10 ^ count := by ring
    have hgrows : coefficient * 10 ≤ coefficient * 10 * 10 ^ count :=
      Nat.le_mul_of_pos_right _ (by positivity)
    unfold appendZeros?
    rw [hpower]
    split
    · next hwidth =>
      rw [ih]
      refine and_congr_right fun hwidened ↦ ⟨?_, fun h ↦ h.imp_left (by omega)⟩
      rintro (rfl | h)
      · right
        rw [hwidened, pow_zero]
        omega
      · exact .inr h
    · next hwide =>
      refine iff_of_false (fun h ↦ by cases h) ?_
      rintro ⟨rfl, h⟩
      omega

/-- Without permission only zeros are dropped, and none of a number in range. -/
theorem eq_of_dropDigits? (h : dropDigits? false coefficient scale = some (kept, places)) :
    coefficient * 10 ^ places = kept * 10 ^ scale ∧ places < 29 := by
  induction scale generalizing coefficient with
  | zero =>
    cases h
    exact ⟨rfl, by decide⟩
  | succ scale ih =>
    unfold dropDigits? at h
    split at h
    · split at h
      · cases h
      · next hzero =>
        obtain ⟨hvalue, hplaces⟩ := ih h
        refine ⟨?_, hplaces⟩
        have hlast : coefficient = coefficient / 10 * 10 := by
          simp only [Bool.not_false, and_true] at hzero
          omega
        calc
          coefficient * 10 ^ places = coefficient / 10 * 10 ^ places * 10 := by
            rw [hlast, Nat.mul_div_cancel _ (by decide)]
            ring
          _ = kept * 10 ^ (scale + 1) := by
            rw [hvalue]
            ring
    · next hfits =>
      cases h
      exact ⟨rfl, by omega⟩

/-- A number with an equal one in range is brought there. -/
theorem exists_dropDigits? {whole shorter : Nat} (hwhole : whole < 2 ^ 96) (hshorter : shorter < 29)
    (h : coefficient * 10 ^ shorter = whole * 10 ^ scale) :
    ∃ kept places, dropDigits? false coefficient scale = some (kept, places) ∧
      kept < 2 ^ 96 := by
  induction scale generalizing coefficient with
  | zero =>
    refine ⟨coefficient, 0, rfl, ?_⟩
    calc
      coefficient ≤ coefficient * 10 ^ shorter := Nat.le_mul_of_pos_right _ (by positivity)
      _ = whole := by rw [h, pow_zero, mul_one]
      _ < 2 ^ 96 := hwhole
  | succ scale ih =>
    unfold dropDigits?
    split
    · next houtside =>
      have hscale : shorter ≤ scale := by
        rcases houtside with hlong | hwide
        · omega
        · by_contra hlonger
          have hpower : 10 ^ (scale + 1) ≤ 10 ^ shorter :=
            Nat.pow_le_pow_right (by decide) (by omega)
          have hless : whole * 10 ^ (scale + 1) < coefficient * 10 ^ shorter :=
            Nat.mul_lt_mul_of_lt_of_le (by omega) hpower (by positivity)
          omega
      have hvalue : coefficient = whole * 10 ^ (scale - shorter) * 10 := by
        refine Nat.eq_of_mul_eq_mul_right (by positivity : 0 < 10 ^ shorter) ?_
        rw [h, mul_assoc, mul_assoc, ← pow_succ', ← pow_add]
        congr 2
        omega
      rw [if_neg (by omega)]
      refine ih (Nat.eq_of_mul_eq_mul_right (by decide : 0 < 10) ?_)
      have hlast : coefficient / 10 * 10 = coefficient := by omega
      calc
        coefficient / 10 * 10 ^ shorter * 10 = coefficient / 10 * 10 * 10 ^ shorter := by ring
        _ = whole * 10 ^ scale * 10 := by
          rw [hlast, h]
          ring
    · exact ⟨coefficient, scale + 1, rfl, by omega⟩

/-! ## Reading -/

/-- What is read is the number that was stored. -/
theorem number_of_toDecimal (hnan : d.isNaN = false) (hfinite : d.isInfinite = false)
    (h : d.toDecimal false false = .ok n) : n.number = d.number := by
  unfold toDecimal at h
  rw [hnan, hfinite, if_neg Bool.false_ne_true, if_neg Bool.false_ne_true] at h
  split at h
  · cases h
  · next widened hwidened =>
    split at h
    · cases h
    · next kept places hkept =>
      split at h
      · next number hnumber =>
        cases h
        obtain ⟨hsigned, hscale⟩ := Decimal.signedCoefficient_ofParts? hnumber
        obtain ⟨rfl, -⟩ := appendZeros?_eq_some.1 hwidened
        obtain ⟨hvalue, -⟩ := eq_of_dropDigits? hkept
        rw [number_eq_iff, hsigned, hscale, signedCoefficient]
        have hwhole : (d.coefficient : Int) * 10 ^ d.exponent.toNat * 10 ^ places =
            kept * 10 ^ (-d.exponent).toNat := by
          exact_mod_cast hvalue
        split
        · rw [neg_mul, neg_mul, neg_mul, hwhole]
        · exact hwhole.symm
      · cases h

/-- A stored number that some decimal equals is read. -/
theorem exists_toDecimal (hnan : d.isNaN = false) (hfinite : d.isInfinite = false)
    (h : n.number = d.number) : ∃ read, d.toDecimal false false = .ok read := by
  have hvalue : n.coefficient.val * 10 ^ (-d.exponent).toNat =
      d.coefficient * 10 ^ d.exponent.toNat * 10 ^ n.scale.val := by
    have habsolute := congrArg Int.natAbs (number_eq_iff.1 h)
    simp only [Int.natAbs_mul, Int.natAbs_pow, natAbs_signedCoefficient,
      Decimal.natAbs_signedCoefficient] at habsolute
    exact habsolute
  have hwidened : appendZeros? d.exponent.toNat d.coefficient =
      some (d.coefficient * 10 ^ d.exponent.toNat) := by
    refine appendZeros?_eq_some.2 ⟨rfl, ?_⟩
    rcases Nat.eq_zero_or_pos d.exponent.toNat with hzero | hpos
    · exact .inl hzero
    · right
      have hdown : (-d.exponent).toNat = 0 := by omega
      rw [hdown, pow_zero, mul_one] at hvalue
      calc
        d.coefficient * 10 ^ d.exponent.toNat ≤
            d.coefficient * 10 ^ d.exponent.toNat * 10 ^ n.scale.val :=
          Nat.le_mul_of_pos_right _ (by positivity)
        _ = n.coefficient.val := hvalue.symm
        _ < 2 ^ 96 := n.coefficient.isLt
  obtain ⟨kept, places, hkept, hwidth⟩ :=
    exists_dropDigits? n.coefficient.isLt n.scale.isLt hvalue.symm
  obtain ⟨read, hread⟩ :=
    Option.isSome_iff_exists.1 (Decimal.ofParts?_isSome d.negative hwidth
      (eq_of_dropDigits? hkept).2)
  refine ⟨read, ?_⟩
  unfold toDecimal
  rw [hnan, hfinite, if_neg Bool.false_ne_true, if_neg Bool.false_ne_true, hwidened]
  dsimp only
  rw [hkept]
  dsimp only
  rw [hread]

end Decimal128

end DocMapping
