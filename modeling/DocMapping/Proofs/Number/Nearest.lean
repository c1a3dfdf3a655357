import DocMapping.Proofs.Number.Whole
import Mathlib.Tactic.Linarith

/-!
# Nearest Binary Numbers

The quotients that are rounded to a binary number are those within half a place of it, or within a
quarter below a power of two, where the places become finer.  A quotient half way between two numbers
belongs to the one with the even significand.
-/

namespace DocMapping

theorem Rounding.halfEven_eq {numerator denominator quotient : Nat} (hpos : 0 < denominator)
    (hlow : 2 * (quotient * denominator) < 2 * numerator + denominator ∨
      quotient % 2 = 0 ∧ 2 * (quotient * denominator) = 2 * numerator + denominator)
    (hhigh : 2 * numerator < 2 * (quotient * denominator) + denominator ∨
      quotient % 2 = 0 ∧ 2 * numerator = 2 * (quotient * denominator) + denominator) :
    halfEven numerator denominator = quotient := by
  have hparts := Nat.div_add_mod numerator denominator
  have hrest := Nat.mod_lt numerator hpos
  have hupper : numerator / denominator ≤ quotient := by
    rw [← Nat.lt_succ_iff, Nat.div_lt_iff_lt_mul hpos, Nat.add_one_mul quotient]
    omega
  have hlower : quotient ≤ numerator / denominator + 1 := by
    rw [← Nat.sub_le_iff_le_add, Nat.le_div_iff_mul_le hpos, Nat.sub_mul]
    omega
  unfold halfEven
  generalize numerator / denominator = lower at hparts hupper hlower
  generalize numerator % denominator = rest at hparts hrest
  rw [Nat.mul_comm] at hparts
  dsimp only
  rcases Nat.lt_or_eq_of_le hupper with hbelow | rfl
  · -- The quotient was rounded up to the number.
    obtain rfl : quotient = lower + 1 := by omega
    rw [Nat.add_one_mul lower] at hlow hhigh
    rw [if_pos (by omega)]
  · rw [if_neg (by omega)]

/-- Half a place more below a power of two is rounded up to the power, as in the places above it. -/
theorem Rounding.halfEven_two_pow {numerator denominator : Nat} (hpos : 0 < denominator)
    (hlow : 2 ^ 55 * denominator ≤ 4 * numerator + 2 * denominator)
    (hhigh : numerator < 2 ^ 53 * denominator) :
    2 ^ 52 * denominator ≤ numerator ∧ halfEven numerator denominator = 2 ^ 53 := by
  refine ⟨by linarith, halfEven_eq hpos ?_ (.inl (by linarith))⟩
  rcases Nat.lt_or_eq_of_le hlow with hless | htie
  · exact .inl (by linarith)
  · exact .inr ⟨rfl, by linarith⟩

namespace Binary64

variable {x y : Binary64} {whole : Int} {scaled numerator denominator : Nat}

/-! ## Significands and places -/

theorem significand_lt (x : Binary64) : x.significand < 2 ^ 53 := by
  have hfraction := x.fraction.isLt
  unfold significand
  split <;> omega

theorem le_significand (h : 0 < x.exponent.val) : 2 ^ 52 ≤ x.significand := by
  unfold significand
  rw [if_neg (by omega)]
  exact Nat.le_add_right _ _

theorem magnitudeBits_eq (x : Binary64) :
    x.magnitudeBits = x.place * 2 ^ 52 + x.significand := by
  unfold magnitudeBits place significand
  split <;> omega

theorem magnitudeBits_lt (h : x.exponent.val < 2047) : x.magnitudeBits < 2047 * 2 ^ 52 := by
  have hfraction := x.fraction.isLt
  unfold magnitudeBits
  omega

/-! ## Intervals -/

/-- How far the numbers above may be that are rounded down, in quarters of the least unit. -/
def reachAbove (x : Binary64) : Nat := 2 * 2 ^ x.place

/-- How far the numbers below may be that are rounded up; below a power of two, places are finer. -/
def reachBelow (x : Binary64) : Nat :=
  if x.significand = 2 ^ 52 ∧ 1 < x.exponent.val then 2 ^ x.place else x.reachAbove

/-- The number is within reach of a point below it; at the end of the reach, if it is even. -/
def ReachesDown (x : Binary64) (point denominator : Nat) : Prop :=
  4 * x.magnitude * denominator < point + x.reachBelow * denominator ∨
    x.significand % 2 = 0 ∧ 4 * x.magnitude * denominator = point + x.reachBelow * denominator

/-- The number is within reach of a point above it; at the end of the reach, if it is even. -/
def ReachesUp (x : Binary64) (point denominator : Nat) : Prop :=
  point < 4 * x.magnitude * denominator + x.reachAbove * denominator ∨
    x.significand % 2 = 0 ∧ point = 4 * x.magnitude * denominator + x.reachAbove * denominator

/-- No number is nearer to the quotient, which counts least units; a tie needs an even significand. -/
structure IsNearest (x : Binary64) (scaled denominator : Nat) : Prop where
  below : x.ReachesDown (4 * scaled) denominator
  above : x.ReachesUp (4 * scaled) denominator

theorem reachBelow_le (x : Binary64) : x.reachBelow ≤ x.reachAbove := by
  unfold reachBelow reachAbove
  split <;> omega

theorem reachBelow_pos (x : Binary64) : 0 < x.reachBelow := by
  have hplace := Nat.two_pow_pos x.place
  unfold reachBelow reachAbove
  split <;> omega

/-- A point on one side of the number that it reaches is within the reach of the other side. -/
theorem isNearest_of_reachesDown (hpos : 0 < denominator) (h : x.ReachesDown (4 * scaled) denominator)
    (hlower : 4 * scaled ≤ 4 * x.magnitude * denominator) : x.IsNearest scaled denominator := by
  have habove := Nat.mul_pos (x.reachBelow_pos.trans_le x.reachBelow_le) hpos
  exact ⟨h, Or.inl (by omega)⟩

theorem isNearest_of_reachesUp (hpos : 0 < denominator) (h : x.ReachesUp (4 * scaled) denominator)
    (hupper : 4 * x.magnitude * denominator ≤ 4 * scaled) : x.IsNearest scaled denominator := by
  have hbelow := Nat.mul_pos x.reachBelow_pos hpos
  exact ⟨Or.inl (by omega), h⟩

/-- A number is the nearest to itself. -/
theorem isNearest_self (hpos : 0 < denominator) (h : scaled = x.magnitude * denominator) :
    x.IsNearest scaled denominator := by
  have hbelow := Nat.mul_pos x.reachBelow_pos hpos
  have hquarters : 4 * x.magnitude * denominator = 4 * scaled := by rw [h, Nat.mul_assoc]
  exact isNearest_of_reachesDown hpos (Or.inl (by omega)) (by omega)

/-! ## Rounding to the nearest -/

/-- The interval in places of the significand. -/
theorem IsNearest.places {unit : Nat} (h : x.IsNearest scaled denominator)
    (hunit : unit = 2 ^ x.place * denominator) :
    (4 * (x.significand * unit) <
        4 * scaled + (if x.significand = 2 ^ 52 ∧ 1 < x.exponent.val then unit else 2 * unit) ∨
      x.significand % 2 = 0 ∧ 4 * (x.significand * unit) =
        4 * scaled + (if x.significand = 2 ^ 52 ∧ 1 < x.exponent.val then unit else 2 * unit)) ∧
    (4 * scaled < 4 * (x.significand * unit) + 2 * unit ∨
      x.significand % 2 = 0 ∧ 4 * scaled = 4 * (x.significand * unit) + 2 * unit) := by
  have hmagnitude : 4 * x.magnitude * denominator = 4 * (x.significand * unit) := by
    rw [hunit, magnitude]
    ring
  have habove : x.reachAbove * denominator = 2 * unit := by
    rw [hunit, reachAbove, Nat.mul_assoc]
  have hbelow : x.reachBelow * denominator =
      if x.significand = 2 ^ 52 ∧ 1 < x.exponent.val then unit else 2 * unit := by
    unfold reachBelow
    split
    · exact hunit.symm
    · exact habove
  obtain ⟨hlow, hhigh⟩ := h
  unfold ReachesDown at hlow
  unfold ReachesUp at hhigh
  rw [hmagnitude, habove] at hhigh
  rw [hmagnitude, hbelow] at hlow
  exact ⟨hlow, hhigh⟩

/-- A greater place would put the significand beyond its 53 bits. -/
theorem IsNearest.le_place (h : x.IsNearest scaled denominator) (hpos : 0 < denominator) :
    (scaled / denominator).log2 - 52 ≤ x.place := by
  obtain ⟨unit, hunit⟩ : ∃ unit, unit = 2 ^ x.place * denominator := ⟨_, rfl⟩
  have hunitpos : 0 < unit := hunit ▸ Nat.mul_pos (Nat.two_pow_pos _) hpos
  have hsignificand := x.significand_lt
  obtain ⟨-, hhigh⟩ := h.places hunit
  by_contra hmore
  have hle : 2 ^ (53 + x.place) ≤ scaled / denominator := by
    have hne : scaled / denominator ≠ 0 := by
      intro hzero
      rw [hzero, Nat.log2_zero] at hmore
      omega
    exact (Nat.pow_le_pow_right Nat.two_pos (by omega)).trans (Nat.log2_self_le hne)
  rw [Nat.le_div_iff_mul_le hpos, Nat.pow_add, Nat.mul_assoc, ← hunit] at hle
  have hlast : x.significand * unit ≤ (2 ^ 53 - 1) * unit := Nat.mul_le_mul_right unit (by omega)
  omega

/-- A quotient of a finer place lies just below a power of two. -/
theorem IsNearest.power_of_finer (h : x.IsNearest scaled denominator) (hpos : 0 < denominator)
    (hfiner : (scaled / denominator).log2 - 52 < x.place) :
    x.significand = 2 ^ 52 ∧ 1 < x.exponent.val ∧
      scaled < 2 ^ 52 * (2 ^ x.place * denominator) := by
  obtain ⟨unit, hunit⟩ : ∃ unit, unit = 2 ^ x.place * denominator := ⟨_, rfl⟩
  have hexponent : 1 < x.exponent.val := by
    unfold place at hfiner
    omega
  have hwide := le_significand (x := x) (by omega)
  have hquotient : scaled < 2 ^ 52 * unit := by
    have hlt : scaled / denominator < 2 ^ (52 + x.place) :=
      Nat.lt_of_lt_of_le Nat.lt_log2_self (Nat.pow_le_pow_right Nat.two_pos (by omega))
    rwa [Nat.div_lt_iff_lt_mul hpos, Nat.pow_add, Nat.mul_assoc, ← hunit] at hlt
  refine ⟨?_, hexponent, hunit ▸ hquotient⟩
  by_contra hother
  obtain ⟨hlow, -⟩ := h.places hunit
  rw [if_neg (fun hboth ↦ hother hboth.1)] at hlow
  have hnext : (2 ^ 52 + 1) * unit ≤ x.significand * unit := Nat.mul_le_mul_right unit (by omega)
  omega

theorem packedBits_of_finer (h : x.IsNearest scaled denominator) (hpos : 0 < denominator)
    (hless : (scaled / denominator).log2 - 52 < x.place) :
    packedBits scaled denominator = x.magnitudeBits := by
  obtain ⟨hpower, hexponent, hquotient⟩ := h.power_of_finer hpos hless
  obtain ⟨hlow, -⟩ := h.places rfl
  rw [hpower, if_pos ⟨rfl, hexponent⟩] at hlow
  obtain ⟨finer, hfiner⟩ : ∃ finer, x.place = finer + 1 :=
    Nat.exists_eq_succ_of_ne_zero (Nat.ne_of_gt (Nat.zero_lt_of_lt hless))
  have hhalf : 2 ^ x.place * denominator = 2 * (denominator * 2 ^ finer) := by
    rw [hfiner, Nat.pow_succ]
    ring
  rw [hhalf] at hquotient hlow
  have hreach : 2 ^ 55 * (denominator * 2 ^ finer) ≤
      4 * scaled + 2 * (denominator * 2 ^ finer) := by
    rcases hlow with hless | ⟨-, htie⟩ <;> linarith
  obtain ⟨hwhole, hround⟩ := Rounding.halfEven_two_pow
    (Nat.mul_pos hpos (Nat.two_pow_pos finer)) hreach (by linarith)
  have hlog : 52 + finer ≤ (scaled / denominator).log2 := by
    have hle : 2 ^ (52 + finer) ≤ scaled / denominator := by
      rwa [Nat.le_div_iff_mul_le hpos, Nat.pow_add, Nat.mul_assoc, Nat.mul_comm (2 ^ finer)]
    rwa [Nat.le_log2 (Nat.lt_of_lt_of_le (Nat.two_pow_pos _) hle).ne']
  have hplace : (scaled / denominator).log2 - 52 = finer :=
    Nat.le_antisymm (Nat.le_of_lt_succ (hless.trans_eq hfiner)) (Nat.le_sub_of_add_le' hlog)
  unfold packedBits
  dsimp only
  rw [magnitudeBits_eq, hplace, hround, hpower, hfiner]
  ring

/-- What is nearest is what the quotient is rounded to. -/
theorem packedBits_of_isNearest (h : x.IsNearest scaled denominator) (hpos : 0 < denominator) :
    packedBits scaled denominator = x.magnitudeBits := by
  rcases Nat.lt_or_eq_of_le (h.le_place hpos) with hless | heq
  · exact packedBits_of_finer h hpos hless
  · obtain ⟨unit, hunit⟩ : ∃ unit, unit = 2 ^ x.place * denominator := ⟨_, rfl⟩
    have hunitpos : 0 < unit := hunit ▸ Nat.mul_pos (Nat.two_pow_pos _) hpos
    obtain ⟨hlow, hhigh⟩ := h.places hunit
    have hround : Rounding.halfEven scaled unit = x.significand := by
      refine Rounding.halfEven_eq hunitpos ?_ (by omega)
      split at hlow <;> omega
    unfold packedBits
    dsimp only
    rw [magnitudeBits_eq, heq, Nat.mul_comm denominator, ← hunit, hround]

theorem ofRatio_of_isNearest (hfinite : x.exponent.val < 2047) (hpos : 0 < denominator)
    (h : x.IsNearest (numerator * 2 ^ 1074) denominator) :
    ofRatio x.negative numerator denominator = x := by
  refine eq_of_magnitudeBits (negative_ofRatio ..) ?_
  rw [magnitudeBits_ofRatio, packedBits_of_isNearest h hpos]
  have hbits := magnitudeBits_lt hfinite
  omega

/-! ## Whole numbers -/

/-- A whole number that is a double is read as this double, but for the sign of zero. -/
theorem IsWhole.ofInt_eq (h : x.IsWhole whole) (hne : whole ≠ 0) : ofInt whole = x := by
  obtain ⟨hmagnitude, hsign⟩ := h.magnitude
  have hnegative : decide (whole < 0) = x.negative := by
    cases hx : x.negative with
    | true =>
      rw [hx, if_pos rfl] at hsign
      exact decide_eq_true (by omega)
    | false =>
      rw [hx, if_neg Bool.false_ne_true] at hsign
      exact decide_eq_false (by omega)
  unfold ofInt
  rw [hnegative]
  refine ofRatio_of_isNearest h.finite Nat.one_pos (isNearest_self Nat.one_pos ?_)
  rw [hmagnitude, Nat.mul_one]

theorem IsWhole.numericEq_ofInt (h : x.IsWhole whole) :
    (ofInt whole).IsWhole whole ∧ (ofInt whole).numericEq x = true := by
  rcases eq_or_ne whole 0 with rfl | hne
  · have hwhole : (ofInt 0).IsWhole 0 := isWhole_ofInt (Nat.zero_le _)
    exact ⟨hwhole, numericEq_of_isZero (hwhole.isZero_iff.2 rfl) (h.isZero_iff.2 rfl)⟩
  · have hnan := isNaN_of_finite h.finite
    rw [h.ofInt_eq hne]
    exact ⟨h, numericEq_iff_bits.2 ⟨hnan, hnan, .inr rfl⟩⟩

end Binary64

end DocMapping
