import DocMapping.Proofs.Codec.Numbers
import DocMapping.Proofs.Evaluation.Arithmetic
import DocMapping.Proofs.Number.Decimal128

/-!
# Narrowing to Whole Numbers

A whole number or a decimal becomes a whole number between two ends.  Where every loss is permitted it
is cut toward zero and then moved into the range, which keeps the order of numbers and does nothing the
second time.  Where none is, only whole numbers of the range are left, each as it is.  A single
permission lifts one of the two conditions and leaves the other as strict as it was.
-/

namespace DocMapping

/-! ## Permissions -/

namespace Permissions

/-- No loss is permitted. -/
def strict : Permissions := { overflow := false, truncation := false }

/-- Digits may be dropped. -/
def cutting : Permissions := { overflow := false, truncation := true }

/-- Numbers may be moved to the end of the range. -/
def moving : Permissions := { overflow := true, truncation := false }

/-- Both losses are permitted. -/
def lenient : Permissions := { overflow := true, truncation := true }

end Permissions

/-! ## Numbers that are cut -/

theorem truncation_intCast (whole : ℤ) : truncation whole = whole := by
  simp [truncation]

theorem truncation_mono {q r : ℚ} (h : q ≤ r) : truncation q ≤ truncation r := by
  unfold truncation
  split
  · next hq =>
    rw [if_pos (hq.trans h)]
    exact Int.floor_mono h
  · next hq =>
    split
    · next hr =>
      have hbelow : ⌈q⌉ ≤ 0 := Int.ceil_le.2 (by simpa using (not_le.1 hq).le)
      exact hbelow.trans (Int.floor_nonneg.2 hr)
    · exact Int.ceil_mono h

namespace Decimal

variable {d : Decimal} {whole : Int}

theorem number_eq_div (d : Decimal) :
    d.number = (d.signedCoefficient : ℚ) / ((10 ^ d.scale.val : ℤ) : ℚ) := by
  unfold number
  rw [zpow_neg, zpow_natCast, div_eq_mul_inv]
  norm_cast

theorem truncate_eq_truncation (d : Decimal) : d.truncate = truncation d.number := by
  rw [truncate_eq, tdiv_eq_truncation, number_eq_div]

theorem number_eq_intCast_iff : d.number = whole ↔ d.IsWhole whole := by
  have hscale : ((10 ^ d.scale.val : ℤ) : ℚ) ≠ 0 := by positivity
  rw [number_eq_div, div_eq_iff hscale]
  unfold IsWhole
  exact_mod_cast Iff.rfl

/-- Without digits other than zero after the point, a decimal is a whole number. -/
theorem hasFraction_eq_false_iff : d.hasFraction = false ↔ ∃ whole : ℤ, d.number = whole := by
  have hdvd : d.hasFraction = false ↔ (10 ^ d.scale.val : ℤ) ∣ d.signedCoefficient := by
    unfold hasFraction
    rw [bne_eq_false_iff_eq, ← Nat.dvd_iff_mod_eq_zero, ← d.natAbs_signedCoefficient,
      ← Int.natCast_dvd]
    norm_cast
  rw [hdvd]
  constructor
  · rintro ⟨whole, hwhole⟩
    exact ⟨whole, number_eq_intCast_iff.2 (hwhole.trans (mul_comm _ _))⟩
  · rintro ⟨whole, hwhole⟩
    exact ⟨whole, (number_eq_intCast_iff.1 hwhole).trans (mul_comm _ _)⟩

end Decimal

namespace Numeral

variable {permissions : Permissions} {n : Numeral} {q : ℚ} {lower upper whole : Int}

/-! ## Numbers that are narrowed -/

/-- The number that a numeral stands for, unless it is a double. -/
def number? : Numeral → Option ℚ
  | integer value => some value.toInt
  | decimal value => some value.number
  | double _ => none

/-- A whole number moved into a range. -/
def moved (lower upper whole : Int) : Int := max lower (min whole upper)

/-- What is known of the parts that a narrowing looks at. -/
structure StandsFor (n : Numeral) (q : ℚ) : Prop where
  number : n.isNaN = false
  hasFraction : n.hasFraction = false ↔ ∃ whole : ℤ, q = whole
  truncated : n.truncated = truncation q

theorem standsFor_of_number? (h : n.number? = some q) : n.StandsFor q := by
  cases n with
  | integer value =>
    cases h
    exact ⟨rfl, iff_of_true rfl ⟨value.toInt, rfl⟩, (truncation_intCast _).symm⟩
  | decimal value =>
    cases h
    exact ⟨rfl, Decimal.hasFraction_eq_false_iff, value.truncate_eq_truncation⟩
  | double value => cases h

/-- Fractions are looked at first, and the range of what is left after them. -/
theorem toInteger_eq (h : n.isNaN = false) : n.toInteger permissions lower upper =
    if n.hasFraction && !permissions.truncation then .error (.fractional n.text)
    else if lower ≤ n.truncated ∧ n.truncated ≤ upper then .ok n.truncated
    else if permissions.overflow then .ok (moved lower upper n.truncated)
    else .error (.outsideRange n.text (toString lower) (toString upper)) := by
  unfold toInteger
  by_cases hfraction : (n.hasFraction && !permissions.truncation) = true
  · have hwhole : n.whole permissions = .error (.fractional n.text) := by
      cases n with
      | integer value => cases hfraction
      | double value =>
        change value.isNaN = false at h
        change (if value.isNaN then _ else _) = _
        rw [h, if_neg Bool.false_ne_true]
        exact if_pos hfraction
      | decimal value => exact if_pos hfraction
    rw [hwhole, if_pos hfraction]
    rfl
  · have hwhole : n.whole permissions = .ok n.truncated :=
      whole_iff.2 ⟨h, fun hpresent ↦ by simpa [hpresent] using hfraction, rfl⟩
    rw [hwhole, if_neg hfraction]
    rfl

/-- Without permission to move, what is left is inside of the range. -/
theorem inside_eq_ok_iff {number : Int} {fault : ConversionFault} :
    (if lower ≤ number ∧ number ≤ upper then .ok number else .error fault) = Except.ok whole ↔
      number = whole ∧ lower ≤ whole ∧ whole ≤ upper := by
  split
  · next hinside =>
    rw [Except.ok.injEq]
    exact ⟨fun h ↦ ⟨h, h ▸ hinside⟩, And.left⟩
  · next houtside =>
    refine iff_of_false nofun ?_
    rintro ⟨rfl, hinside⟩
    exact houtside hinside

theorem moved_of_inside (hlow : lower ≤ whole) (hhigh : whole ≤ upper) :
    moved lower upper whole = whole := by
  unfold moved
  omega

theorem moved_mono {other : Int} (h : whole ≤ other) :
    moved lower upper whole ≤ moved lower upper other := by
  unfold moved
  omega

theorem moved_inside (whole : Int) (hrange : lower ≤ upper) :
    lower ≤ moved lower upper whole ∧ moved lower upper whole ≤ upper := by
  unfold moved
  omega

/-- A number that was moved stays where it is. -/
theorem toInteger_moved {lower upper : Int64} (hrange : lower.toInt ≤ upper.toInt) :
    (integer (Int64.ofInt (moved lower.toInt upper.toInt whole))).toInteger permissions
      lower.toInt upper.toInt = .ok (moved lower.toInt upper.toInt whole) := by
  obtain ⟨hlow, hhigh⟩ := moved_inside whole hrange
  have hlower := lower.le_toInt
  have hupper := upper.toInt_lt
  -- The ends are those of 64 bits or lie between them, so nothing wraps around.
  obtain ⟨number, hnumber⟩ : ∃ number, Int64.ofInt (moved lower.toInt upper.toInt whole) = number :=
    ⟨_, rfl⟩
  have hkept : number.toInt = moved lower.toInt upper.toInt whole := by
    rw [← hnumber]
    exact Int64.toInt_ofInt_of_le (by omega) (by omega)
  rw [hnumber, ← hkept]
  exact toInteger_integer (by omega) (by omega)

namespace StandsFor

theorem ne_intCast (h : n.StandsFor q) (hfraction : n.hasFraction = true) (whole : ℤ) :
    q ≠ whole := by
  intro hwhole
  rw [h.hasFraction.2 ⟨whole, hwhole⟩] at hfraction
  cases hfraction

/-- With both permissions a number is cut and moved. -/
theorem toInteger_lenient (h : n.StandsFor q) : n.toInteger .lenient lower upper =
    .ok (moved lower upper (truncation q)) := by
  rw [toInteger_eq h.number, h.truncated]
  simp only [Permissions.lenient, Bool.not_true, Bool.and_false, Bool.false_eq_true, if_false, if_true]
  split
  · next hinside => rw [moved_of_inside hinside.1 hinside.2]
  · rfl

/-- Without permissions a number is one of the whole numbers of the range. -/
theorem toInteger_strict_iff (h : n.StandsFor q) : n.toInteger .strict lower upper = .ok whole ↔
    q = whole ∧ lower ≤ whole ∧ whole ≤ upper := by
  rw [toInteger_eq h.number, h.truncated]
  simp only [Permissions.strict, Bool.not_false, Bool.and_true, Bool.false_eq_true, if_false]
  cases hfraction : n.hasFraction with
  | true =>
    refine iff_of_false nofun ?_
    rintro ⟨hwhole, -⟩
    exact h.ne_intCast hfraction whole hwhole
  | false =>
    obtain ⟨k, rfl⟩ := h.hasFraction.1 hfraction
    rw [truncation_intCast, Int.cast_inj, if_neg Bool.false_ne_true]
    exact inside_eq_ok_iff

/-- Permission to drop digits is about numbers with a fraction. -/
theorem toInteger_cutting_eq (h : n.StandsFor q) (hwhole : ∃ whole : ℤ, q = whole) :
    n.toInteger .cutting lower upper = n.toInteger .strict lower upper := by
  rw [toInteger_eq h.number, toInteger_eq h.number, h.hasFraction.2 hwhole]
  rfl

theorem toInteger_cutting_iff (h : n.StandsFor q) : n.toInteger .cutting lower upper = .ok whole ↔
    truncation q = whole ∧ lower ≤ whole ∧ whole ≤ upper := by
  rw [toInteger_eq h.number, h.truncated]
  simp only [Permissions.cutting, Bool.not_true, Bool.and_false, Bool.false_eq_true, if_false]
  exact inside_eq_ok_iff

/-- Permission to move is about whole numbers beyond the range. -/
theorem toInteger_moving_eq (h : n.StandsFor q)
    (hwithin : (¬∃ whole : ℤ, q = whole) ∨ lower ≤ truncation q ∧ truncation q ≤ upper) :
    n.toInteger .moving lower upper = n.toInteger .strict lower upper := by
  rw [toInteger_eq h.number, toInteger_eq h.number, h.truncated]
  rcases hwithin with hfraction | hinside
  · rw [← h.hasFraction, Bool.not_eq_false] at hfraction
    rw [hfraction]
    rfl
  · rw [if_pos hinside, if_pos hinside]
    rfl

theorem toInteger_moving_iff (h : n.StandsFor q) : n.toInteger .moving lower upper = .ok whole ↔
    ∃ exact : ℤ, q = exact ∧ whole = moved lower upper exact := by
  rw [toInteger_eq h.number, h.truncated]
  simp only [Permissions.moving, Bool.not_false, Bool.and_true, if_true]
  cases hfraction : n.hasFraction with
  | true =>
    refine iff_of_false nofun ?_
    rintro ⟨exact, hexact, -⟩
    exact h.ne_intCast hfraction exact hexact
  | false =>
    obtain ⟨k, rfl⟩ := h.hasFraction.1 hfraction
    rw [truncation_intCast]
    simp only [Bool.false_eq_true, if_false, Int.cast_inj, exists_eq_left']
    split
    · next hinside =>
      rw [moved_of_inside hinside.1 hinside.2, Except.ok.injEq, eq_comm]
    · rw [Except.ok.injEq, eq_comm]

end StandsFor

/-- Narrowing is exact.  With both permissions a number is cut toward zero and moved into the range,
which keeps the order and changes nothing when it is done again.  Without permissions the whole
numbers of the range are kept as they are, and no others.  One permission changes this only for the
numbers that it is about: those with a fraction, or the whole ones beyond the range. -/
theorem toInteger_exact {lower upper : Int64} (hrange : lower.toInt ≤ upper.toInt)
    (hn : n.number? = some q) :
    (n.toInteger .lenient lower.toInt upper.toInt =
        .ok (moved lower.toInt upper.toInt (truncation q)) ∧
      (∀ (m : Numeral) (r : ℚ), m.number? = some r → q ≤ r →
        ∃ k l, n.toInteger .lenient lower.toInt upper.toInt = .ok k ∧
          m.toInteger .lenient lower.toInt upper.toInt = .ok l ∧ k ≤ l) ∧
      ∀ k, n.toInteger .lenient lower.toInt upper.toInt = .ok k →
        (integer (Int64.ofInt k)).toInteger .lenient lower.toInt upper.toInt = .ok k) ∧
    (∀ k, n.toInteger .strict lower.toInt upper.toInt = .ok k ↔
      q = k ∧ lower.toInt ≤ k ∧ k ≤ upper.toInt) ∧
    (((∃ k : ℤ, q = k) → n.toInteger .cutting lower.toInt upper.toInt =
        n.toInteger .strict lower.toInt upper.toInt) ∧
      ∀ k, n.toInteger .cutting lower.toInt upper.toInt = .ok k ↔
        truncation q = k ∧ lower.toInt ≤ k ∧ k ≤ upper.toInt) ∧
    ((((¬∃ k : ℤ, q = k) ∨ lower.toInt ≤ truncation q ∧ truncation q ≤ upper.toInt) →
        n.toInteger .moving lower.toInt upper.toInt =
          n.toInteger .strict lower.toInt upper.toInt) ∧
      ∀ k, n.toInteger .moving lower.toInt upper.toInt = .ok k ↔
        ∃ exact : ℤ, q = exact ∧ k = moved lower.toInt upper.toInt exact) := by
  have h := standsFor_of_number? hn
  refine ⟨⟨h.toInteger_lenient, fun m r hm hqr ↦ ?_, fun k hk ↦ ?_⟩,
    fun k ↦ h.toInteger_strict_iff, ⟨h.toInteger_cutting_eq, fun k ↦ h.toInteger_cutting_iff⟩,
    h.toInteger_moving_eq, fun k ↦ h.toInteger_moving_iff⟩
  · exact ⟨_, _, h.toInteger_lenient, (standsFor_of_number? hm).toInteger_lenient,
      moved_mono (truncation_mono hqr)⟩
  · obtain rfl : moved lower.toInt upper.toInt (truncation q) = k :=
      Except.ok.inj (h.toInteger_lenient.symm.trans hk)
    exact toInteger_moved hrange

/-! ### A discount -/

/-- A number of almost four below zero. -/
def discount : Numeral := decimal ⟨true, lowBits 96 3995, ⟨3, by decide⟩⟩

theorem toInteger_exact_discount :
    discount.number? = some (-3995 / 1000) ∧
      discount.toInteger .lenient (-2) 5 = .ok (-2) ∧
      (∀ k, discount.toInteger .cutting (-2) 5 ≠ .ok k) ∧
      discount.toInteger .moving (-2) 5 = discount.toInteger .strict (-2) 5 ∧
      (integer (-2)).toInteger .lenient (-2) 5 = .ok (-2) := by
  have hnumber : discount.number? = some (-3995 / 1000) := by
    change some (((-3995 : ℤ) : ℚ) * 10 ^ (-((3 : ℕ) : ℤ))) = some (-3995 / 1000)
    norm_num
  have hcut : truncation (-3995 / 1000) = -3 := by
    norm_num [truncation, Int.ceil_eq_iff]
  have hfraction : ¬∃ k : ℤ, (-3995 / 1000 : ℚ) = k := by
    rintro ⟨k, hk⟩
    have hwhole := truncation_intCast k
    rw [← hk, hcut] at hwhole
    rw [← hwhole] at hk
    norm_num at hk
  have hlower : (-2 : Int64).toInt = -2 := by decide
  have hupper : (5 : Int64).toInt = 5 := by decide
  have hrange : (-2 : Int64).toInt ≤ (5 : Int64).toInt := by decide
  obtain ⟨⟨hlenient, -, hagain⟩, -, ⟨-, hcutting⟩, hmoving, -⟩ := toInteger_exact hrange hnumber
  rw [hlower, hupper] at hlenient hagain hcutting hmoving
  have hmoved : discount.toInteger .lenient (-2) 5 = .ok (-2) := by
    rw [hlenient, hcut]
    rfl
  refine ⟨hnumber, hmoved, fun k hk ↦ ?_, hmoving (.inl hfraction), hagain (-2) hmoved⟩
  obtain ⟨hvalue, hlow, -⟩ := (hcutting k).1 hk
  omega

end Numeral

end DocMapping
