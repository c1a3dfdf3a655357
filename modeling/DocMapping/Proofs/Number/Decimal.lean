import DocMapping.Number.Decimal
import DocMapping.Proofs.Order
import Mathlib.Tactic.Ring

/-!
# Decimals as Exact Numbers

A decimal is its coefficient, with the sign, over a power of ten.  The sign of zero does not count,
and decimals are equal as numbers if they are once they are brought to one scale.
-/

namespace DocMapping.Decimal

variable {a b d : Decimal} {k l : Int} {negative : Bool} {coefficient scale : Nat}

/-! ## Coefficients -/

theorem natAbs_signedCoefficient (d : Decimal) :
    d.signedCoefficient.natAbs = d.coefficient.val := by
  unfold signedCoefficient
  split <;> omega

theorem natAbs_lt (d : Decimal) : d.signedCoefficient.natAbs < 2 ^ 96 := by
  rw [natAbs_signedCoefficient]
  exact d.coefficient.isLt

theorem signedCoefficient_neg (d : Decimal) :
    d.signedCoefficient < 0 ↔ d.negative = true ∧ d.coefficient.val ≠ 0 := by
  unfold signedCoefficient
  cases d.negative with
  | true =>
    simp only [if_true, true_and]
    omega
  | false =>
    rw [if_neg Bool.false_ne_true]
    exact iff_of_false (by omega) fun h ↦ Bool.false_ne_true h.1

/-- Every whole number of 96 bits is a decimal one. -/
theorem signedCoefficient_ofInt {number : Int} (h : number.natAbs < 2 ^ 96) :
    (ofInt number).signedCoefficient = number := by
  have hcoefficient : (lowBits 96 number.natAbs).val = number.natAbs := Nat.mod_eq_of_lt h
  unfold ofInt signedCoefficient
  dsimp only
  rw [hcoefficient]
  rcases lt_or_ge number 0 with hneg | hpos
  · rw [decide_eq_true hneg, if_pos rfl]
    omega
  · rw [decide_eq_false (by omega), if_neg Bool.false_ne_true]
    omega

theorem signedCoefficient_unsignZero (d : Decimal) :
    d.unsignZero.signedCoefficient = d.signedCoefficient := by
  unfold signedCoefficient unsignZero
  rcases Nat.eq_zero_or_pos d.coefficient.val with hzero | hpos
  · simp [hzero]
  · simp [hpos.ne']

theorem ofParts?_isSome (negative : Bool) (hcoefficient : coefficient < 2 ^ 96)
    (hscale : scale < 29) :
    (ofParts? negative coefficient scale).isSome = true := by
  unfold ofParts? ofSigned?
  rw [dif_pos ⟨hcoefficient, hscale⟩]
  rfl

theorem signedCoefficient_ofParts? (h : ofParts? negative coefficient scale = some d) :
    d.signedCoefficient = (if negative then -(coefficient : Int) else coefficient) ∧
      d.scale.val = scale := by
  unfold ofParts? at h
  obtain ⟨number, hnumber, rfl⟩ := Option.map_eq_some_iff.1 h
  unfold ofSigned? at hnumber
  split at hnumber <;> cases hnumber
  exact ⟨signedCoefficient_unsignZero _, rfl⟩

/-! ## Equality -/

theorem numericEq_iff : a.numericEq b = true ↔
    a.signedCoefficient * 10 ^ b.scale.val = b.signedCoefficient * 10 ^ a.scale.val := by
  unfold numericEq Decimal.order
  rw [beq_iff_eq, Std.compare_eq_iff_eq]

theorem numericEq_self (d : Decimal) : d.numericEq d = true := numericEq_iff.2 rfl

theorem numericEq_comm (a b : Decimal) : a.numericEq b = b.numericEq a :=
  Bool.eq_iff_iff.2 (numericEq_iff.trans (eq_comm.trans numericEq_iff.symm))

theorem numericEq_unsignZero (d : Decimal) : d.numericEq d.unsignZero = true :=
  numericEq_iff.2 (congrArg (· * _) d.signedCoefficient_unsignZero.symm)

/-! ## Whole numbers -/

/-- The decimal is a whole number, whatever its scale. -/
def IsWhole (d : Decimal) (whole : Int) : Prop :=
  d.signedCoefficient = whole * 10 ^ d.scale.val

theorem truncate_eq (d : Decimal) : d.truncate = d.signedCoefficient.tdiv (10 ^ d.scale.val) := by
  have hquotient : ((d.coefficient.val / 10 ^ d.scale.val : Nat) : Int) =
      (d.coefficient.val : Int).tdiv (10 ^ d.scale.val) := by
    rw [Int.natCast_div, Int.natCast_pow]
    exact (Int.tdiv_eq_ediv_of_nonneg (Int.natCast_nonneg _)).symm
  unfold truncate signedCoefficient
  dsimp only
  rw [hquotient]
  split
  · rw [Int.neg_tdiv]
  · rfl

theorem isWhole_of_scale (h : d.scale = 0) : d.IsWhole d.signedCoefficient := by
  rw [IsWhole, h]
  exact (Int.mul_one _).symm

theorem IsWhole.truncate (h : d.IsWhole k) : d.truncate = k := by
  rw [truncate_eq, h]
  exact Int.mul_tdiv_cancel _ (Int.pow_pos (by decide)).ne'

theorem IsWhole.order (ha : a.IsWhole k) (hb : b.IsWhole l) : a.order b = compare k l := by
  have hpos : (0 : Int) < 10 ^ a.scale.val * 10 ^ b.scale.val :=
    Int.mul_pos (Int.pow_pos (by decide)) (Int.pow_pos (by decide))
  have hleft : k * 10 ^ a.scale.val * 10 ^ b.scale.val =
      k * (10 ^ a.scale.val * 10 ^ b.scale.val) := Int.mul_assoc ..
  have hright : l * 10 ^ b.scale.val * 10 ^ a.scale.val =
      l * (10 ^ a.scale.val * 10 ^ b.scale.val) := by ring
  unfold Decimal.order
  rw [ha, hb, hleft, hright]
  exact compare_keys (fun h ↦ Int.mul_lt_mul_of_pos_right h hpos)
    (fun h ↦ Int.mul_lt_mul_of_pos_right h hpos) fun h ↦ by rw [h]

theorem isWhole_of_numericEq {whole : Int} (hwhole : whole.natAbs < 2 ^ 96)
    (h : (Decimal.ofInt whole).numericEq d = true) : d.IsWhole whole := by
  rw [Decimal.numericEq_iff, signedCoefficient_ofInt hwhole] at h
  exact (Int.mul_one _).symm.trans h.symm

end DocMapping.Decimal
