import DocMapping.Proofs.Number.Approximation

/-!
# Doubles that Are Whole Numbers

The double nearest to a number of 64 bits is itself a whole number, though it may be another one.
Cutting it off after the point tells whether it is, with one exception: the double nearest to the
greatest number of 64 bits is one more, which is beyond the range and is moved back into it.
-/

namespace DocMapping.Binary64

variable {x y : Binary64} {number whole lower upper : Int}

/-- The double is exactly the whole number. -/
structure IsWhole (x : Binary64) (whole : Int) : Prop where
  finite : x.exponent.val < 2047
  units : x.units = whole * (2 ^ 1074 : Nat)

/-- A double is one number only. -/
theorem IsWhole.unique {other : Int} (h : x.IsWhole whole) (hother : x.IsWhole other) :
    whole = other := by
  have hunits := h.units.symm.trans hother.units
  have hunit (scale : Nat) : ((2 ^ scale : Nat) : Int) ≠ 0 :=
    Int.natCast_ne_zero.2 (Nat.two_pow_pos scale).ne'
  exact Int.eq_of_mul_eq_mul_right (hunit 1074) hunits

theorem IsWhole.magnitude (h : x.IsWhole whole) :
    x.magnitude = whole.natAbs * 2 ^ 1074 ∧
      (if x.negative then -(whole.natAbs : Int) else whole.natAbs) = whole := by
  have hunits := h.units
  have hunit (scale : Nat) : 0 < 2 ^ scale := Nat.two_pow_pos scale
  replace hunit := hunit 1074
  unfold Binary64.units at hunits
  generalize 2 ^ 1074 = unit at hunits hunit ⊢
  have hscaled : x.magnitude = whole.natAbs * unit := by
    have habs := congrArg Int.natAbs hunits
    rw [Int.natAbs_mul, Int.natAbs_natCast] at habs
    split at habs <;> simpa using habs
  refine ⟨hscaled, ?_⟩
  rw [hscaled, Nat.cast_mul, ← Int.neg_mul, ← ite_mul] at hunits
  exact Int.eq_of_mul_eq_mul_right (by omega) hunits

/-- Cutting off a whole number only moves it into the range. -/
theorem IsWhole.truncateInto (h : x.IsWhole whole) :
    x.truncateInto lower upper = max lower (min upper whole) := by
  obtain ⟨hmagnitude, hsign⟩ := h.magnitude
  rw [truncateInto_of_magnitude h.finite hmagnitude, hsign]

theorem IsWhole.hasFraction (h : x.IsWhole whole) : x.hasFraction = false :=
  hasFraction_of_magnitude h.magnitude.1

theorem isZero_iff : x.isZero = true ↔ x.exponent.val < 2047 ∧ x.magnitude = 0 := by
  have hpower := Nat.two_pow_pos x.place
  unfold isZero magnitude significand
  rw [decide_eq_true_eq, Nat.mul_eq_zero, or_iff_left hpower.ne']
  split <;> omega

theorem numericEq_of_isZero (hx : x.isZero = true) (hy : y.isZero = true) :
    x.numericEq y = true :=
  numericEq_iff_bits.2 ⟨isNaN_of_finite (isZero_iff.1 hx).1, isNaN_of_finite (isZero_iff.1 hy).1,
    .inl ⟨hx, hy⟩⟩

theorem IsWhole.isZero_iff (h : x.IsWhole whole) : x.isZero = true ↔ whole = 0 := by
  have hunit (scale : Nat) : 2 ^ scale ≠ 0 := (Nat.two_pow_pos scale).ne'
  rw [Binary64.isZero_iff, and_iff_right h.finite, h.magnitude.1, Nat.mul_eq_zero,
    or_iff_left (hunit 1074), Int.natAbs_eq_zero]

theorem isWhole_zero (h : x.isZero = true) : x.IsWhole 0 := by
  obtain ⟨hfinite, hmagnitude⟩ := Binary64.isZero_iff.1 h
  refine ⟨hfinite, ?_⟩
  rw [units, hmagnitude, Int.zero_mul]
  split <;> rfl

/-- Doubles that are equal are the same whole number. -/
theorem IsWhole.congr (h : x.IsWhole whole) (hequal : x.numericEq y = true) : y.IsWhole whole := by
  obtain ⟨-, -, ⟨hx, hy⟩ | rfl⟩ := numericEq_iff_bits.1 hequal
  · rw [h.isZero_iff.1 hx]
    exact isWhole_zero hy
  · exact h

/-- A finite double without digits after the point is a whole number. -/
theorem exists_isWhole (hfinite : x.exponent.val < 2047) (h : x.hasFraction = false) :
    ∃ whole, x.IsWhole whole := by
  have hwhole : x.magnitude % 2 ^ 1074 = 0 := by
    unfold hasFraction isFinite at h
    rw [decide_eq_true hfinite, Bool.true_and, bne_eq_false_iff_eq] at h
    exact h
  obtain ⟨scaled, hscaled⟩ := Nat.dvd_of_mod_eq_zero hwhole
  refine ⟨if x.negative then -scaled else scaled, hfinite, ?_⟩
  rw [units, hscaled]
  generalize 2 ^ 1074 = unit
  split <;> push_cast <;> ring

theorem isWhole_ofInt (h : number.natAbs ≤ 2 ^ 53) : (ofInt number).IsWhole number :=
  ⟨ofInt_finite (by omega), units_ofInt h⟩

/-- The double nearest to the end of the range is beyond it. -/
theorem isWhole_ofInt_last : (ofInt (2 ^ 63 - 1)).IsWhole (2 ^ 63) := by
  refine ⟨ofInt_finite (by decide), ?_⟩
  decide +kernel

/-- Beyond 53 bits the last place of a double is a whole one. -/
theorem dvd_magnitude_ofRatio {magnitude : Nat} (h : 2 ^ 53 ≤ magnitude) (negative : Bool) :
    2 ^ 1074 ∣ (ofRatio negative magnitude 1).magnitude := by
  have hfirst : 1076 * 2 ^ 52 ≤ packedBits (2 ^ 53 * 2 ^ 1074) 1 := by decide +kernel
  have hbits := packedBits_mono (Nat.mul_le_mul_right (2 ^ 1074) h) 1
  have hmagnitude := magnitudeBits_ofRatio negative magnitude 1
  generalize ofRatio negative magnitude 1 = x at hmagnitude ⊢
  generalize packedBits (2 ^ 53 * 2 ^ 1074) 1 = first at hfirst hbits
  generalize packedBits (magnitude * 2 ^ 1074) 1 = packed at hbits hmagnitude
  unfold magnitudeBits at hmagnitude
  have hfraction := x.fraction.isLt
  have hplace : 1074 ≤ x.place := by
    unfold place
    omega
  have hdvd {scale : Nat} (hscale : scale ≤ x.place) : 2 ^ scale ∣ x.magnitude :=
    (Nat.pow_dvd_pow 2 hscale).mul_left _
  exact hdvd hplace

theorem exists_isWhole_ofInt (h : number.natAbs ≤ 2 ^ 63) :
    ∃ whole : Int, (ofInt number).IsWhole whole ∧ whole.natAbs ≤ 2 ^ 63 := by
  rcases Nat.lt_or_ge number.natAbs (2 ^ 53) with hnarrow | hwide
  · exact ⟨number, isWhole_ofInt hnarrow.le, h⟩
  · obtain ⟨scaled, hscaled⟩ := dvd_magnitude_ofRatio hwide (decide (number < 0))
    have hlast : (ofRatio false (2 ^ 63) 1).magnitude = 2 ^ 63 * 2 ^ 1074 := by decide +kernel
    have hbound : scaled ≤ 2 ^ 63 := by
      have hmono := magnitude_ofRatio_mono h (decide (number < 0)) false
      have hunit (scale : Nat) : 0 < 2 ^ scale := Nat.two_pow_pos scale
      rw [hscaled, hlast, Nat.mul_comm] at hmono
      exact Nat.le_of_mul_le_mul_right hmono (hunit 1074)
    refine ⟨if number < 0 then -scaled else scaled, ⟨ofInt_finite (by omega), ?_⟩, by omega⟩
    unfold Binary64.units
    rw [negative_ofInt]
    unfold ofInt
    rw [hscaled]
    generalize 2 ^ 1074 = unit
    simp only [decide_eq_true_eq]
    split <;> push_cast <;> ring

/-- Cutting off the nearest double gives a number back only if the double is that number, or if it is
the greatest one of the range. -/
theorem truncateInto_ofInt_eq_iff (hlow : -2 ^ 63 ≤ number) (hhigh : number < 2 ^ 63) :
    (ofInt number).truncateInto (-2 ^ 63) (2 ^ 63 - 1) = number ↔
      (ofInt number).IsWhole number ∨ number = 2 ^ 63 - 1 := by
  have hrange : number.natAbs ≤ 2 ^ 63 := by omega
  obtain ⟨whole, hwhole, hbound⟩ := exists_isWhole_ofInt hrange
  rw [hwhole.truncateInto]
  constructor
  · intro h
    by_cases hlast : whole = 2 ^ 63
    · right
      omega
    · left
      obtain rfl : whole = number := by omega
      exact hwhole
  · rintro (hexact | rfl)
    · rw [hwhole.unique hexact]
      omega
    · rw [hwhole.unique isWhole_ofInt_last]
      omega

end DocMapping.Binary64
