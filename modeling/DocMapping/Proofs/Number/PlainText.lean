import DocMapping.Proofs.Number.Reading
import DocMapping.Proofs.Number.Shortest

/-!
# Written Doubles Are Read Again

The running text of a finite double is made of its shortest digits, and the double is the nearest one
to the number that they write.  This number is in the range that reading rounds, so that the double is
read back.
-/

namespace DocMapping.Binary64

variable {x : Binary64} {whole : Int} {coefficient places scaled denominator : Nat}

theorem magnitude_ne_zero (hfinite : x.exponent.val < 2047) (hzero : x.isZero = false) :
    x.magnitude ≠ 0 := fun hnone ↦ by
  rw [isZero_iff.2 ⟨hfinite, hnone⟩] at hzero
  cases hzero

theorem reachAbove_le (h : x.magnitude ≠ 0) : x.reachAbove ≤ 2 * x.magnitude := by
  unfold magnitude at h ⊢
  have hsignificand : 0 < x.significand :=
    Nat.pos_of_ne_zero (Nat.ne_zero_of_mul_ne_zero_left h)
  exact Nat.mul_le_mul_left 2 (Nat.le_mul_of_pos_left _ hsignificand)

/-- A quotient is at least half of what it is rounded to, and at most one and a half of it. -/
theorem IsNearest.bounds (h : x.IsNearest scaled denominator) (hne : x.magnitude ≠ 0) :
    x.magnitude * denominator ≤ 2 * scaled ∧ 2 * scaled ≤ 3 * (x.magnitude * denominator) := by
  have habove := Nat.mul_le_mul_right denominator (reachAbove_le hne)
  have hbelow := Nat.mul_le_mul_right denominator x.reachBelow_le
  obtain ⟨hdown, hup⟩ := h
  unfold ReachesDown at hdown
  unfold ReachesUp at hup
  rw [Nat.mul_assoc] at hdown hup habove
  omega

theorem magnitude_lt (h : x.exponent.val < 2047) : x.magnitude < 2 ^ 53 * 2 ^ 2045 := by
  have hpower {scale : Nat} (hscale : x.place ≤ scale) : x.magnitude < 2 ^ 53 * 2 ^ scale :=
    Nat.mul_lt_mul_of_lt_of_le x.significand_lt (Nat.pow_le_pow_right Nat.two_pos hscale)
      (Nat.two_pow_pos _)
  exact hpower (by unfold place; omega)

/-- A number that is rounded to another one than zero is not so small that it is taken as zero. -/
theorem IsNearest.places_le (h : x.IsNearest (coefficient * 2 ^ 1074) (10 ^ places))
    (hne : x.magnitude ≠ 0) : places ≤ Rounding.digitCount coefficient + 330 := by
  by_contra hless
  have hlower := (h.bounds hne).1
  have hleast := Nat.le_mul_of_pos_left (10 ^ places) (Nat.pos_of_ne_zero hne)
  have hcount := Text.lt_pow_digitCount coefficient
  have hpower : 10 ^ Rounding.digitCount coefficient * 10 ^ 331 ≤ 10 ^ places := by
    rw [← Nat.pow_add]
    exact Nat.pow_le_pow_right (by decide) (by omega)
  have htwos : 2 * 2 ^ 1074 ≤ 10 ^ 331 := by decide +kernel
  have hten (scale : Nat) : 0 < 10 ^ scale := Nat.pow_pos (by decide)
  replace hten := hten 331
  clear h
  generalize 2 ^ 1074 = unit at hlower htwos
  generalize 10 ^ 331 = ten at hpower htwos hten
  have hstep : coefficient * (2 * unit) ≤ coefficient * ten := Nat.mul_le_mul_left _ htwos
  have hlast : coefficient * ten < 10 ^ Rounding.digitCount coefficient * ten :=
    Nat.mul_lt_mul_of_pos_right hcount hten
  linarith only [hstep, hlast, hpower, hlower, hleast]

/-- A number that is rounded to a finite one is not so great that it is taken as infinite. -/
theorem IsNearest.digitCount_le (h : x.IsNearest (coefficient * 2 ^ 1074) (10 ^ places))
    (hne : x.magnitude ≠ 0) (hfinite : x.exponent.val < 2047) (hsome : coefficient ≠ 0) :
    Rounding.digitCount coefficient ≤ places + 310 := by
  by_contra hmore
  have hupper := (h.bounds hne).2
  have hrange := Nat.mul_lt_mul_of_pos_right (magnitude_lt hfinite)
    (Nat.pow_pos (by decide) : 0 < 10 ^ places)
  have hcount := Text.pow_digitCount_le (Nat.pos_of_ne_zero hsome)
  have hpower : 10 ^ places * 10 ^ 310 ≤ 10 ^ (Rounding.digitCount coefficient - 1) := by
    rw [← Nat.pow_add]
    exact Nat.pow_le_pow_right (by decide) (by omega)
  have htwos : 3 * (2 ^ 53 * 2 ^ 2045) ≤ 2 * (10 ^ 310 * 2 ^ 1074) := by decide +kernel
  clear h hfinite
  generalize 2 ^ 1074 = unit at hupper htwos
  generalize 10 ^ 310 = ten at hpower htwos
  generalize 2 ^ 53 * 2 ^ 2045 = last at hrange htwos
  have hstep : 10 ^ places * ten * unit ≤ coefficient * unit :=
    Nat.mul_le_mul_right _ (hpower.trans hcount)
  have hlast := Nat.mul_le_mul_left (10 ^ places) htwos
  linarith only [hstep, hlast, hupper, hrange]

theorem ofDecimal_of_isNearest (hfinite : x.exponent.val < 2047) (hne : x.magnitude ≠ 0)
    (h : x.IsNearest (coefficient * 2 ^ 1074) (10 ^ places)) :
    ofDecimal x.negative coefficient (-(places : Int)) = x := by
  have hpos : 0 < 10 ^ places := Nat.pow_pos (by decide)
  have hnearest := ofRatio_of_isNearest hfinite hpos h
  have hsome : coefficient ≠ 0 := by
    rintro rfl
    have hlower := (h.bounds hne).1
    have hleast := Nat.mul_pos (Nat.pos_of_ne_zero hne) hpos
    omega
  have hsmall := h.places_le hne
  have hgreat := h.digitCount_le hne hfinite hsome
  unfold ofDecimal
  dsimp only
  rw [if_neg (by omega), if_neg (by omega), Int.neg_neg, Int.toNat_natCast,
    show (-(places : Int)).toNat = 0 by omega, Nat.pow_zero, Nat.mul_one]
  exact hnearest

/-- The text of a finite double is a number that it is nearest to, and a whole one if the double is. -/
theorem plainText_spec (hfinite : x.exponent.val < 2047) : ∃ text coefficient places,
    x.plainText = (if x.negative then "-" else "") ++ text ∧
      IsPlainText text.toList coefficient places ∧
      x.IsNearest (coefficient * 2 ^ 1074) (10 ^ places) ∧
      (x.isZero = true → coefficient = 0) ∧ ∀ whole, x.IsWhole whole → places = 0 := by
  have hnan := isNaN_of_finite hfinite
  have hinfinite := isInfinite_of_finite hfinite
  cases hzero : x.isZero with
  | true =>
    have hplain : IsPlainText "0".toList 0 0 :=
      ⟨['0'], [], fun c hc ↦ List.mem_singleton.1 hc ▸ rfl, List.cons_ne_nil _ _, rfl, rfl, rfl⟩
    refine ⟨"0", 0, 0, plainText_of_isZero hnan hinfinite hzero, hplain,
      isNearest_self Nat.one_pos ?_, fun _ ↦ rfl, fun _ _ ↦ rfl⟩
    rw [(isZero_iff.1 hzero).2, Nat.zero_mul, Nat.zero_mul]
  | false =>
    have hnearest := isNearest_of_nearestOnGrid? (digits_spec (magnitude_ne_zero hfinite hzero)).1
    refine ⟨_, _, _, plainText_eq hnan hinfinite hzero, isPlainText_digits _ _, hnearest,
      fun hnone ↦ absurd hnone Bool.false_ne_true, fun whole hwhole ↦ ?_⟩
    have hne : whole ≠ 0 := fun hnone ↦ by
      rw [hwhole.isZero_iff.2 hnone] at hzero
      cases hzero
    have hexponent := hwhole.exponent_digits hne
    omega

/-- A finite double is read as it was written. -/
theorem ofText?_plainText (hfinite : x.exponent.val < 2047) : ofText? x.plainText = some x := by
  obtain ⟨text, coefficient, places, htext, hplain, hnearest, hnone, -⟩ := plainText_spec hfinite
  rw [htext, ofText?_of_isPlainText hplain]
  cases hzero : x.isZero with
  | true =>
    have hbits : zero x.negative = x := eq_of_magnitudeBits rfl
      ((magnitudeBits_of_isZero rfl).trans (magnitudeBits_of_isZero hzero).symm)
    rw [hnone hzero]
    exact congrArg some hbits
  | false => rw [ofDecimal_of_isNearest hfinite (magnitude_ne_zero hfinite hzero) hnearest]

/-! ## Texts without a point -/

/-- The text of a whole double is a whole decimal, if it has no more than 96 bits. -/
theorem IsWhole.decimalText (h : x.IsWhole whole) : ∃ coefficient,
    Decimal.ofText? x.plainText = Decimal.ofParts? x.negative coefficient 0 ∧
      x.IsNearest (coefficient * 2 ^ 1074) 1 := by
  obtain ⟨text, coefficient, places, htext, hplain, hnearest, -, hplaces⟩ := plainText_spec h.finite
  cases hplaces whole h
  obtain ⟨hdigits, hne, hvalue⟩ := hplain.digits
  refine ⟨coefficient, ?_, hnearest⟩
  rw [htext, ← hvalue]
  exact Decimal.ofText?_of_digits (splitSign_of_isPlainText hplain _) hdigits hne

/-- No double is written as the greatest number of 64 bits, since the nearest one is one more. -/
theorem toInt_ne_last {number : Int64} (hfinite : x.exponent.val < 2047)
    (h : Numeral.integerOfText? x.plainText = some number) : number.toInt ≠ 2 ^ 63 - 1 := by
  intro hlast
  obtain ⟨text, coefficient, places, htext, hplain, hnearest, -, -⟩ := plainText_spec hfinite
  obtain ⟨negative, l, hsplit, hdigits, -, hvalue⟩ := Numeral.integerOfText?_eq_some h
  rw [htext, splitSign_of_isPlainText hplain] at hsplit
  cases hsplit
  cases hplain.places_eq_zero hdigits
  rw [hplain.digits.2.2, hlast] at hvalue
  have hpositive : x.negative = false := by
    cases hnegative : x.negative with
    | true =>
      rw [hnegative, if_pos rfl] at hvalue
      omega
    | false => rfl
  rw [hpositive, if_neg Bool.false_ne_true] at hvalue
  obtain rfl : coefficient = 2 ^ 63 - 1 := by omega
  have hx : ofRatio x.negative (2 ^ 63 - 1) 1 = x := ofRatio_of_isNearest hfinite Nat.one_pos hnearest
  have hother : Numeral.integerOfText? (ofRatio false (2 ^ 63 - 1) 1).plainText = none := by
    decide +kernel
  rw [hpositive] at hx
  rw [hx, h] at hother
  cases hother

/-! ## Whole numbers that are written exactly -/

theorem place_le {unit number : Nat} (h : x.magnitude = number * 2 ^ unit)
    (hnarrow : number < 2 ^ 53) : x.place ≤ unit := by
  by_contra hgreat
  have hsignificand := le_significand (x := x) (by unfold place at hgreat; omega)
  have hpower : 2 ^ (unit + 1) ≤ 2 ^ x.place := Nat.pow_le_pow_right Nat.two_pos (by omega)
  have hvalue := Nat.mul_le_mul hsignificand hpower
  rw [← magnitude, h, Nat.pow_succ] at hvalue
  have hless := Nat.mul_lt_mul_of_pos_right hnarrow (Nat.two_pow_pos unit)
  omega

/-- Below 53 bits no other whole number is as near. -/
theorem IsWhole.eq_of_isNearest (h : x.IsWhole whole) (hnarrow : whole.natAbs < 2 ^ 53)
    (hnearest : x.IsNearest (coefficient * 2 ^ 1074) 1) : coefficient = whole.natAbs := by
  obtain ⟨hmagnitude, -⟩ := h.magnitude
  have hreach {unit : Nat} (hvalue : x.magnitude = whole.natAbs * 2 ^ unit) :
      x.reachAbove ≤ 2 * 2 ^ unit :=
    Nat.mul_le_mul_left 2 (Nat.pow_le_pow_right Nat.two_pos (place_le hvalue hnarrow))
  have hunit (scale : Nat) : 0 < 2 ^ scale := Nat.two_pow_pos scale
  replace hunit := hunit 1074
  replace hreach := hreach hmagnitude
  have hbelow := x.reachBelow_le
  obtain ⟨hdown, hup⟩ := hnearest
  unfold ReachesDown at hdown
  unfold ReachesUp at hup
  rw [hmagnitude] at hdown hup
  generalize 2 ^ 1074 = unit at *
  rcases Nat.lt_trichotomy coefficient whole.natAbs with hless | hsame | hmore
  · have hstep := Nat.mul_le_mul_right unit hless
    rw [Nat.succ_mul] at hstep
    omega
  · exact hsame
  · have hstep := Nat.mul_le_mul_right unit hmore
    rw [Nat.succ_mul] at hstep
    omega

/-- Beyond 96 bits every number that is as near is as wide. -/
theorem IsWhole.le_of_isNearest (h : x.IsWhole whole) (hwide : 2 ^ 96 < whole.natAbs)
    (hnearest : x.IsNearest (coefficient * 2 ^ 1074) 1) : 2 ^ 96 ≤ coefficient := by
  by_contra hless
  obtain ⟨hmagnitude, -⟩ := h.magnitude
  have hmono := magnitude_ofRatio_mono (Nat.not_le.1 hless).le x.negative false
  have hlast : (ofRatio false (2 ^ 96) 1).magnitude = 2 ^ 96 * 2 ^ 1074 := by decide +kernel
  have hunit (scale : Nat) : 0 < 2 ^ scale := Nat.two_pow_pos scale
  rw [ofRatio_of_isNearest h.finite Nat.one_pos hnearest, hlast, hmagnitude] at hmono
  exact Nat.not_le.2 hwide (Nat.le_of_mul_le_mul_right hmono (hunit 1074))

end DocMapping.Binary64
