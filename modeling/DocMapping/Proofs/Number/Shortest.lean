import DocMapping.Number.Shortest
import DocMapping.Proofs.Number.Nearest
import DocMapping.Proofs.Text.Digits

/-!
# Shortest Digits Are Nearest

The shortest digits of a binary number lie in its interval: on a grid of seventeen digits one of its
two neighbours always does, and a coarser grid is taken only if one does there.  The digits of a whole
number are whole.
-/

namespace DocMapping

theorem Text.pow_digitCount_le {number : Nat} (hpos : 0 < number) :
    10 ^ (Rounding.digitCount number - 1) ≤ number := by
  by_contra hless
  rcases Nat.eq_zero_or_pos (Rounding.digitCount number - 1) with hzero | hsome
  · rw [hzero, Nat.pow_zero] at hless
    omega
  · have hcount : Rounding.digitCount number ≤ Rounding.digitCount number - 1 :=
      (Nat.length_toDigits_le_iff (by decide) hsome).2 (by omega)
    omega

namespace Binary64

variable {x : Binary64} {whole : Int} {coefficient steps : Nat} {exponent start : Int}

/-! ## One grid -/

/-- The number lies between two points of the grid.  One that reaches the number is taken, if there is
one; distances are in quarters of the least unit, widened to be whole. -/
theorem nearestOnGrid?_cases (x : Binary64) (exponent : Int) : ∃ lower spacing,
    spacing = 4 * 2 ^ 1074 * 10 ^ exponent.toNat ∧
    lower * spacing ≤ 4 * x.magnitude * 10 ^ (-exponent).toNat ∧
    4 * x.magnitude * 10 ^ (-exponent).toNat < (lower + 1) * spacing ∧
    (x.nearestOnGrid? exponent = some lower ∧
        x.ReachesDown (lower * spacing) (10 ^ (-exponent).toNat) ∨
      x.nearestOnGrid? exponent = some (lower + 1) ∧
        x.ReachesUp ((lower + 1) * spacing) (10 ^ (-exponent).toNat) ∨
      x.nearestOnGrid? exponent = none ∧
        ¬x.ReachesDown (lower * spacing) (10 ^ (-exponent).toNat) ∧
        ¬x.ReachesUp ((lower + 1) * spacing) (10 ^ (-exponent).toNat)) := by
  have hquarters : 2 ^ 1076 = 4 * 2 ^ 1074 := by decide +kernel
  have hunit (scale : Nat) : 0 < 2 ^ scale := Nat.two_pow_pos scale
  have hpos : 0 < 4 * 2 ^ 1074 * 10 ^ exponent.toNat :=
    Nat.mul_pos (Nat.mul_pos (by decide) (hunit 1074)) (Nat.pow_pos (by decide))
  have hreach : (if x.significand = 2 ^ 52 ∧ 1 < x.exponent.val
      then 2 ^ x.place * 10 ^ (-exponent).toNat else 2 * 2 ^ x.place * 10 ^ (-exponent).toNat) =
        x.reachBelow * 10 ^ (-exponent).toNat := by
    unfold reachBelow reachAbove
    split <;> rfl
  generalize hchosen : x.nearestOnGrid? exponent = chosen
  unfold nearestOnGrid? at hchosen
  rw [hquarters] at hchosen
  dsimp only at hchosen
  rw [hreach, ← reachAbove] at hchosen
  generalize 4 * 2 ^ 1074 * 10 ^ exponent.toNat = spacing at hpos hchosen
  generalize 10 ^ (-exponent).toNat = widen at hchosen
  have hlower := Nat.div_mul_le_self (4 * x.magnitude * widen) spacing
  have hupper := Nat.lt_div_mul_add (a := 4 * x.magnitude * widen) hpos
  generalize 4 * x.magnitude * widen / spacing = lower at hlower hupper hchosen
  rw [← Nat.add_one_mul lower] at hupper
  refine ⟨lower, spacing, rfl, hlower, hupper, ?_⟩
  unfold ReachesDown ReachesUp
  split at hchosen
  · next hboth =>
    split at hchosen
    · exact .inl ⟨hchosen.symm, hboth.1⟩
    · exact .inr (.inl ⟨hchosen.symm, hboth.2⟩)
  · split at hchosen
    · next hdown => exact .inl ⟨hchosen.symm, hdown⟩
    · next hnotDown =>
      split at hchosen
      · next hup => exact .inr (.inl ⟨hchosen.symm, hup⟩)
      · next hnotUp => exact .inr (.inr ⟨hchosen.symm, hnotDown, hnotUp⟩)

/-- A neighbour that is taken lies in the interval. -/
theorem isNearest_of_nearestOnGrid? (h : x.nearestOnGrid? exponent = some coefficient) :
    x.IsNearest (coefficient * 10 ^ exponent.toNat * 2 ^ 1074) (10 ^ (-exponent).toNat) := by
  obtain ⟨lower, spacing, hspacing, hlower, hupper, hcases⟩ := x.nearestOnGrid?_cases exponent
  have hwiden : 0 < 10 ^ (-exponent).toNat := Nat.pow_pos (by decide)
  have hscaled (unit : Nat) (hunit : spacing = 4 * unit * 10 ^ exponent.toNat) (c : Nat) :
      c * spacing = 4 * (c * 10 ^ exponent.toNat * unit) := by
    rw [hunit]
    ring
  replace hscaled := hscaled _ hspacing
  rcases hcases with ⟨hchosen, hdown⟩ | ⟨hchosen, hup⟩ | ⟨hnone, -⟩
  · cases hchosen.symm.trans h
    rw [hscaled] at hdown hlower
    exact isNearest_of_reachesDown hwiden hdown hlower
  · cases hchosen.symm.trans h
    rw [hscaled] at hup hupper
    exact isNearest_of_reachesUp hwiden hup hupper.le
  · cases hnone.symm.trans h

theorem magnitude_le_reachBelow (x : Binary64) : 4 * x.magnitude ≤ 2 ^ 54 * x.reachBelow := by
  have hsignificand := x.significand_lt
  unfold magnitude reachBelow reachAbove
  generalize 2 ^ x.place = unit
  split
  · next hpower =>
    rw [hpower.1]
    omega
  · have hle : x.significand * unit ≤ 2 ^ 53 * unit := Nat.mul_le_mul_right unit hsignificand.le
    omega

/-- On a grid of seventeen digits a neighbour is taken. -/
theorem nearestOnGrid?_isSome (h : 10 ^ 16 * (2 ^ 1074 * 10 ^ exponent.toNat) ≤
    x.magnitude * 10 ^ (-exponent).toNat) : (x.nearestOnGrid? exponent).isSome = true := by
  obtain ⟨lower, spacing, hspacing, -, -, hcases⟩ := x.nearestOnGrid?_cases exponent
  rcases hcases with ⟨hchosen, -⟩ | ⟨hchosen, -⟩ | ⟨-, hnotDown, hnotUp⟩
  · rw [hchosen, Option.isSome_some]
  · rw [hchosen, Option.isSome_some]
  · -- Neither neighbour would be within reach, so that the grid would be too coarse.
    exfalso
    have hwiden : 0 < 10 ^ (-exponent).toNat := Nat.pow_pos (by decide)
    have hreach := Nat.mul_pos x.reachBelow_pos hwiden
    have hreaches := Nat.mul_le_mul_right (10 ^ (-exponent).toNat) x.reachBelow_le
    have hgrid : 10 ^ 16 * spacing ≤ 4 * x.magnitude * 10 ^ (-exponent).toNat := by
      generalize 2 ^ 1074 = unit at h hspacing
      rw [hspacing]
      linarith only [h]
    have hvalue : 4 * x.magnitude * 10 ^ (-exponent).toNat ≤
        2 ^ 54 * (x.reachBelow * 10 ^ (-exponent).toNat) := by
      rw [← Nat.mul_assoc]
      exact Nat.mul_le_mul_right _ x.magnitude_le_reachBelow
    unfold ReachesDown at hnotDown
    unfold ReachesUp at hnotUp
    rw [Nat.add_one_mul lower] at hnotUp
    clear h hspacing
    generalize 10 ^ (-exponent).toNat = widen at *
    omega

/-! ## All grids -/

/-- The digits are taken from a grid no finer than one on which a neighbour is taken. -/
theorem digitsFrom_spec {more : Nat} (hsteps : steps < more)
    (h : (x.nearestOnGrid? (start - steps)).isSome = true) :
    x.nearestOnGrid? (x.digitsFrom more start).exponent = some (x.digitsFrom more start).coefficient ∧
      start - steps ≤ (x.digitsFrom more start).exponent := by
  induction more generalizing start steps with
  | zero => omega
  | succ more ih =>
    unfold digitsFrom
    cases hfirst : x.nearestOnGrid? start with
    | some coefficient => exact ⟨hfirst, by dsimp only; omega⟩
    | none =>
      dsimp only
      cases steps with
      | zero =>
        rw [Nat.cast_zero, Int.sub_zero, hfirst] at h
        cases h
      | succ steps =>
        have hshift : start - ((steps + 1 : Nat) : Int) = start - 1 - steps := by omega
        rw [hshift] at h ⊢
        exact ih (by omega) h

/-- The leading exponent is not too great. -/
theorem pow_leadingExponent_le (h : x.magnitude ≠ 0) :
    2 ^ 1074 * 10 ^ x.leadingExponent.toNat ≤ x.magnitude * 10 ^ (-x.leadingExponent).toNat := by
  have hunit (scale : Nat) : 0 < 2 ^ scale := Nat.two_pow_pos scale
  replace hunit := hunit 1074
  unfold leadingExponent
  dsimp only
  generalize 2 ^ 1074 = unit at hunit ⊢
  split
  · next hle =>
    have hquotient : 0 < x.magnitude / unit := Nat.div_pos hle hunit
    have hexponent : 0 < Rounding.digitCount (x.magnitude / unit) := Nat.length_toDigits_pos
    have hup : ((Rounding.digitCount (x.magnitude / unit) : Int) - 1).toNat =
        Rounding.digitCount (x.magnitude / unit) - 1 := by omega
    have hdown : (-((Rounding.digitCount (x.magnitude / unit) : Int) - 1)).toNat = 0 := by omega
    rw [hup, hdown, Nat.pow_zero, Nat.mul_one]
    calc
      unit * 10 ^ (Rounding.digitCount (x.magnitude / unit) - 1) ≤ unit * (x.magnitude / unit) :=
        Nat.mul_le_mul_left unit (Text.pow_digitCount_le hquotient)
      _ ≤ x.magnitude := Nat.mul_div_le _ _
  · next hless =>
    have hcount := Text.lt_pow_digitCount ((unit - 1) / x.magnitude)
    rw [Nat.div_lt_iff_lt_mul (Nat.pos_of_ne_zero h)] at hcount
    rw [Int.neg_neg, Int.toNat_natCast, show ∀ n : Nat, (-(n : Int)).toNat = 0 by omega,
      Nat.pow_zero, Nat.mul_one, Nat.mul_comm]
    omega

/-- Seventeen digits suffice. -/
theorem digits_spec (h : x.magnitude ≠ 0) :
    x.nearestOnGrid? x.digits.exponent = some x.digits.coefficient ∧
      x.leadingExponent - 16 ≤ x.digits.exponent := by
  have hleading := pow_leadingExponent_le h
  have hgrid : 10 ^ 16 * (2 ^ 1074 * 10 ^ (x.leadingExponent - 16).toNat) ≤
      x.magnitude * 10 ^ (-(x.leadingExponent - 16)).toNat := by
    generalize 2 ^ 1074 = unit at hleading ⊢
    have hplaces : x.leadingExponent.toNat + (-(x.leadingExponent - 16)).toNat =
        16 + (x.leadingExponent - 16).toNat + (-x.leadingExponent).toNat := by omega
    have hten : 0 < 10 ^ (-x.leadingExponent).toNat := Nat.pow_pos (by decide)
    refine Nat.le_of_mul_le_mul_right ?_ hten
    calc
      10 ^ 16 * (unit * 10 ^ (x.leadingExponent - 16).toNat) * 10 ^ (-x.leadingExponent).toNat =
          unit * 10 ^ (16 + (x.leadingExponent - 16).toNat + (-x.leadingExponent).toNat) := by
        rw [Nat.pow_add, Nat.pow_add]
        ring
      _ = unit * 10 ^ x.leadingExponent.toNat * 10 ^ (-(x.leadingExponent - 16)).toNat := by
        rw [← hplaces, Nat.pow_add, Nat.mul_assoc]
      _ ≤ x.magnitude * 10 ^ (-x.leadingExponent).toNat *
          10 ^ (-(x.leadingExponent - 16)).toNat := Nat.mul_le_mul_right _ hleading
      _ = _ := Nat.mul_right_comm ..
  have hstart : x.leadingExponent + 1 - (17 : Nat) = x.leadingExponent - 16 := by omega
  have hsome := nearestOnGrid?_isSome hgrid
  rw [← hstart] at hsome ⊢
  exact x.digitsFrom_spec (by decide) hsome

/-- A number that is itself on the grid is taken. -/
theorem nearestOnGrid?_isSome_of_eq (point : Nat) (h : x.magnitude * 10 ^ (-exponent).toNat =
    point * (2 ^ 1074 * 10 ^ exponent.toNat)) : (x.nearestOnGrid? exponent).isSome = true := by
  obtain ⟨lower, spacing, hspacing, hlower, hupper, hcases⟩ := x.nearestOnGrid?_cases exponent
  rcases hcases with ⟨hchosen, -⟩ | ⟨hchosen, -⟩ | ⟨-, hnotDown, -⟩
  · rw [hchosen, Option.isSome_some]
  · rw [hchosen, Option.isSome_some]
  · refine absurd (Or.inl ?_) hnotDown
    have hreach := Nat.mul_pos x.reachBelow_pos (Nat.pow_pos (by decide) : 0 < 10 ^ (-exponent).toNat)
    have hvalue : 4 * x.magnitude * 10 ^ (-exponent).toNat = point * spacing := by
      generalize 2 ^ 1074 = unit at h hspacing
      rw [hspacing, Nat.mul_assoc, h]
      ring
    rw [hvalue] at hlower hupper ⊢
    have hspace : 0 < spacing := Nat.pos_of_ne_zero fun hzero ↦ by simp [hzero] at hupper
    have hsame : lower = point :=
      Nat.le_antisymm (Nat.le_of_mul_le_mul_right hlower hspace)
        (Nat.le_of_lt_succ (Nat.lt_of_mul_lt_mul_right hupper))
    rw [hsame]
    exact Nat.lt_add_of_pos_right hreach

/-- The digits of a whole number are whole. -/
theorem IsWhole.exponent_digits (h : x.IsWhole whole) (hne : whole ≠ 0) :
    0 ≤ x.digits.exponent := by
  obtain ⟨hmagnitude, -⟩ := h.magnitude
  have hunit (scale : Nat) : 0 < 2 ^ scale := Nat.two_pow_pos scale
  replace hunit := hunit 1074
  have hpos : 0 < whole.natAbs := Int.natAbs_pos.2 hne
  have hsome : x.magnitude ≠ 0 := by
    rw [hmagnitude]
    exact (Nat.mul_pos hpos hunit).ne'
  have hleading : 0 ≤ x.leadingExponent := by
    unfold leadingExponent
    rw [hmagnitude]
    generalize 2 ^ 1074 = unit at hunit
    have hcount : 0 < Rounding.digitCount (whole.natAbs * unit / unit) := Nat.length_toDigits_pos
    dsimp only
    rw [if_pos (Nat.le_mul_of_pos_left unit hpos)]
    omega
  rcases Int.lt_or_le x.leadingExponent 16 with hshort | hlong
  · -- The number is itself on the grid of the whole numbers.
    have hwhole : (x.nearestOnGrid? 0).isSome = true := by
      refine nearestOnGrid?_isSome_of_eq whole.natAbs ?_
      rw [hmagnitude, Int.neg_zero, Int.toNat_zero, Nat.pow_zero, Nat.mul_one, Nat.mul_one]
    obtain ⟨steps, hsteps⟩ : ∃ steps : Nat, (steps : Int) = x.leadingExponent + 1 :=
      ⟨(x.leadingExponent + 1).toNat, by omega⟩
    have hlast : x.leadingExponent + 1 - steps = 0 := by omega
    rw [← hlast] at hwhole
    have hmore : steps < 18 := by omega
    have hspec := (x.digitsFrom_spec hmore hwhole).2
    rwa [hlast] at hspec
  · have hspec := (digits_spec hsome).2
    omega

end Binary64

end DocMapping
