import DocMapping.Proofs.Number.Decimal

/-!
# Decimals without Trailing Zeros

A decimal loses the zeros at the end of its fraction, and zero its sign, without becoming another
number.  What is left is the same for all decimals of one number, so that equality of numbers is
equality of normal forms.
-/

namespace DocMapping.Decimal

/-! ## Coefficients without zeros at their end -/

/-- No zero can be dropped after the point. -/
def IsReduced (coefficient scale : Nat) : Prop := scale = 0 ∨ coefficient % 10 ≠ 0

theorem stripZeros_le (coefficient scale : Nat) : (stripZeros coefficient scale).2 ≤ scale := by
  induction scale generalizing coefficient with
  | zero => exact le_rfl
  | succ scale ih =>
    unfold stripZeros
    split
    · exact (ih _).trans (Nat.le_succ scale)
    · exact le_rfl

theorem stripZeros_mul (coefficient scale : Nat) :
    (stripZeros coefficient scale).1 * 10 ^ scale =
      coefficient * 10 ^ (stripZeros coefficient scale).2 := by
  induction scale generalizing coefficient with
  | zero => rfl
  | succ scale ih =>
    unfold stripZeros
    split
    · next hzero =>
      have hcoefficient : coefficient / 10 * 10 = coefficient :=
        Nat.div_mul_cancel (Nat.dvd_of_mod_eq_zero hzero)
      calc
        _ = (stripZeros (coefficient / 10) scale).1 * 10 ^ scale * 10 := by rw [pow_succ, mul_assoc]
        _ = coefficient / 10 * 10 * 10 ^ (stripZeros (coefficient / 10) scale).2 := by
          rw [ih, mul_right_comm]
        _ = _ := by rw [hcoefficient]
    · rfl

theorem isReduced_stripZeros (coefficient scale : Nat) :
    IsReduced (stripZeros coefficient scale).1 (stripZeros coefficient scale).2 := by
  induction scale generalizing coefficient with
  | zero => exact .inl rfl
  | succ scale ih =>
    unfold stripZeros
    split
    · exact ih _
    · next hne => exact .inr hne

theorem stripZeros_fst_le (coefficient scale : Nat) :
    (stripZeros coefficient scale).1 ≤ coefficient := by
  apply Nat.le_of_mul_le_mul_right _ (Nat.pow_pos (n := scale) (by decide : 0 < 10))
  rw [stripZeros_mul]
  exact Nat.mul_le_mul_left _ (Nat.pow_le_pow_right (by decide) (stripZeros_le coefficient scale))

/-- The scale of a reduced coefficient is the least one of its number. -/
theorem IsReduced.scale_le {c d s t : Nat} (h : IsReduced d t) (heq : c * 10 ^ t = d * 10 ^ s) :
    t ≤ s := by
  by_contra hlt
  obtain ⟨k, rfl⟩ := Nat.exists_eq_add_of_lt (not_le.1 hlt)
  have hfactor : c * 10 ^ (k + 1) = d := by
    apply Nat.eq_of_mul_eq_mul_right (Nat.pow_pos (n := s) (by decide : 0 < 10))
    rw [← heq]
    ring
  rcases h with hzero | hne
  · omega
  · rw [← hfactor, pow_succ, ← mul_assoc, Nat.mul_mod_left] at hne
    exact hne rfl

theorem IsReduced.unique {c d s t : Nat} (hc : IsReduced c s) (hd : IsReduced d t)
    (heq : c * 10 ^ t = d * 10 ^ s) : c = d ∧ s = t := by
  obtain rfl : s = t := le_antisymm (hc.scale_le heq.symm) (hd.scale_le heq)
  exact ⟨Nat.eq_of_mul_eq_mul_right (Nat.pow_pos (by decide)) heq, rfl⟩

/-! ## Normal forms -/

variable {a b c d : Decimal}

theorem numericEq_trans (hab : a.numericEq b = true) (hbc : b.numericEq c = true) :
    a.numericEq c = true := by
  rw [numericEq_iff] at hab hbc ⊢
  apply Int.eq_of_mul_eq_mul_right (a := 10 ^ b.scale.val) (pow_ne_zero _ (by decide))
  calc
    _ = a.signedCoefficient * 10 ^ b.scale.val * 10 ^ c.scale.val := mul_right_comm ..
    _ = b.signedCoefficient * 10 ^ c.scale.val * 10 ^ a.scale.val := by rw [hab, mul_right_comm]
    _ = _ := by rw [hbc, mul_right_comm]

/-- Equal numbers have equal magnitudes at one scale. -/
theorem magnitude_of_numericEq (h : a.numericEq b = true) :
    a.coefficient.val * 10 ^ b.scale.val = b.coefficient.val * 10 ^ a.scale.val := by
  have hmagnitude := congrArg Int.natAbs (numericEq_iff.1 h)
  rw [Int.natAbs_mul, Int.natAbs_mul, Int.natAbs_pow, Int.natAbs_pow, natAbs_signedCoefficient,
    natAbs_signedCoefficient] at hmagnitude
  exact hmagnitude

theorem isZero_of_numericEq (h : a.numericEq b = true) (ha : a.isZero = true) :
    b.isZero = true := by
  have hmagnitude := magnitude_of_numericEq h
  unfold isZero at ha ⊢
  rw [beq_iff_eq] at ha ⊢
  rw [ha, Nat.zero_mul] at hmagnitude
  exact (Nat.mul_eq_zero.1 hmagnitude.symm).resolve_right (Nat.pow_pos (by decide)).ne'

/-- Equal numbers other than zero have one sign. -/
theorem negative_of_numericEq (h : a.numericEq b = true) (ha : a.isZero = false)
    (hb : b.isZero = false) : a.negative = b.negative := by
  have hsign (s : Nat) : Int.sign (10 ^ s) = 1 := Int.sign_eq_one_of_pos (Int.pow_pos (by decide))
  have hsigns := congrArg Int.sign (numericEq_iff.1 h)
  rw [Int.sign_mul, Int.sign_mul, hsign, hsign, Int.mul_one, Int.mul_one] at hsigns
  have hnegative : a.signedCoefficient < 0 ↔ b.signedCoefficient < 0 := by
    rw [← Int.sign_eq_neg_one_iff_neg, ← Int.sign_eq_neg_one_iff_neg, hsigns]
  unfold isZero at ha hb
  rw [signedCoefficient_neg, signedCoefficient_neg, and_iff_left (beq_eq_false_iff_ne.1 ha),
    and_iff_left (beq_eq_false_iff_ne.1 hb)] at hnegative
  exact Bool.eq_iff_iff.2 hnegative

theorem normalize_of_isZero (h : d.isZero = true) : d.normalize = zero := by
  unfold normalize
  rw [if_pos h]

/-- The parts of the normal form of a number other than zero. -/
theorem normalize_eq (h : d.isZero = false) :
    d.normalize.negative = d.negative ∧
      d.normalize.coefficient.val = (stripZeros d.coefficient.val d.scale.val).1 ∧
      d.normalize.scale.val = (stripZeros d.coefficient.val d.scale.val).2 := by
  unfold normalize
  rw [if_neg (by simp [h])]
  refine ⟨rfl, Nat.mod_eq_of_lt ?_, Nat.mod_eq_of_lt ?_⟩
  · exact (stripZeros_fst_le _ _).trans_lt d.coefficient.isLt
  · exact (stripZeros_le _ _).trans_lt d.scale.isLt

theorem isReduced_normalize (h : d.isZero = false) :
    IsReduced d.normalize.coefficient.val d.normalize.scale.val := by
  obtain ⟨-, hcoefficient, hscale⟩ := normalize_eq h
  rw [hcoefficient, hscale]
  exact isReduced_stripZeros _ _

/-- The normal form is the same number. -/
theorem numericEq_normalize (d : Decimal) : d.numericEq d.normalize = true := by
  rw [numericEq_iff]
  unfold signedCoefficient
  cases h : d.isZero with
  | true =>
    have hzero : d.coefficient.val = 0 := beq_iff_eq.1 h
    simp [normalize_of_isZero h, zero, hzero]
  | false =>
    obtain ⟨hsign, hcoefficient, hscale⟩ := normalize_eq h
    have hmul : (d.coefficient.val : ℤ) * 10 ^ d.normalize.scale.val =
        d.normalize.coefficient.val * 10 ^ d.scale.val := by
      rw [hcoefficient, hscale]
      exact_mod_cast (stripZeros_mul d.coefficient.val d.scale.val).symm
    rw [hsign]
    split
    · rw [Int.neg_mul, Int.neg_mul, hmul]
    · exact hmul

/-- Numbers are equal if their normal forms are the same. -/
theorem normalize_eq_iff : a.normalize = b.normalize ↔ a.numericEq b = true := by
  have hback (d : Decimal) : d.normalize.numericEq d = true := by
    rw [numericEq_comm]
    exact d.numericEq_normalize
  constructor
  · exact fun h ↦ numericEq_trans a.numericEq_normalize (h ▸ hback b)
  · intro h
    cases ha : a.isZero with
    | true => rw [normalize_of_isZero ha, normalize_of_isZero (isZero_of_numericEq h ha)]
    | false =>
      have hb : b.isZero = false := by
        rw [Bool.eq_false_iff] at ha ⊢
        exact fun hb ↦ ha (isZero_of_numericEq (numericEq_comm a b ▸ h) hb)
      have hnormal := numericEq_trans (hback a) (numericEq_trans h b.numericEq_normalize)
      obtain ⟨hcoefficient, hscale⟩ := (isReduced_normalize ha).unique (isReduced_normalize hb)
        (magnitude_of_numericEq hnormal)
      have hsign : a.normalize.negative = b.normalize.negative :=
        calc
          _ = a.negative := (normalize_eq ha).1
          _ = b.negative := negative_of_numericEq h ha hb
          _ = _ := (normalize_eq hb).1.symm
      cases hleft : a.normalize
      cases hright : b.normalize
      rw [hleft, hright] at hcoefficient hscale hsign
      cases hsign
      cases Fin.ext hcoefficient
      cases Fin.ext hscale
      rfl

end DocMapping.Decimal
