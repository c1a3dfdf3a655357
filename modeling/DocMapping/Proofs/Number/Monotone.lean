import DocMapping.Proofs.Number.Binary64

/-!
# Rounding Keeps the Order

Of two quotients with one denominator the greater is never rounded to the smaller number.  Whole
numbers as doubles are therefore out of order nowhere: two of them may at most become the same double,
and those of 53 bits do not even that.
-/

namespace DocMapping

/-! ## Quotients -/

namespace Rounding

variable {a b denominator : Nat}

theorem div_le_halfEven (a denominator : Nat) : a / denominator ≤ halfEven a denominator := by
  unfold halfEven
  dsimp only
  split <;> omega

theorem halfEven_le_succ (a denominator : Nat) : halfEven a denominator ≤ a / denominator + 1 := by
  unfold halfEven
  dsimp only
  split <;> omega

theorem halfEven_mono (h : a ≤ b) : halfEven a denominator ≤ halfEven b denominator := by
  rcases Nat.lt_or_eq_of_le (Nat.div_le_div_right (c := denominator) h) with hlt | heq
  · calc
      halfEven a denominator ≤ a / denominator + 1 := halfEven_le_succ a denominator
      _ ≤ b / denominator := hlt
      _ ≤ halfEven b denominator := div_le_halfEven b denominator
  · -- Equal quotients leave the decision to the remainders.
    have hrest : a % denominator ≤ b % denominator := by
      have ha := Nat.div_add_mod a denominator
      have hb := Nat.div_add_mod b denominator
      rw [heq] at ha
      omega
    unfold halfEven
    rw [heq]
    dsimp only
    split <;> split <;> omega

end Rounding

namespace Binary64

variable {a b denominator : Nat}

/-- The bits of a rounded quotient without its sign, as if there were exponents without end. -/
def packedBits (scaled denominator : Nat) : Nat :=
  let place := (scaled / denominator).log2 - 52
  place * 2 ^ 52 + Rounding.halfEven scaled (denominator * 2 ^ place)

theorem ofRatio_eq (negative : Bool) (numerator denominator : Nat) :
    ofRatio negative numerator denominator =
      if packedBits (numerator * 2 ^ 1074) denominator < 2047 * 2 ^ 52 then
        ⟨negative, Fin.ofNat 2048 (packedBits (numerator * 2 ^ 1074) denominator / 2 ^ 52),
          lowBits 52 (packedBits (numerator * 2 ^ 1074) denominator)⟩
      else infinity negative := by
  unfold ofRatio
  generalize numerator * 2 ^ 1074 = scaled
  rfl

theorem magnitudeBits_ofRatio (negative : Bool) (numerator denominator : Nat) :
    (ofRatio negative numerator denominator).magnitudeBits =
      min (packedBits (numerator * 2 ^ 1074) denominator) (2047 * 2 ^ 52) := by
  rw [ofRatio_eq]
  generalize packedBits (numerator * 2 ^ 1074) denominator = packed
  split
  · unfold magnitudeBits
    simp only [Fin.val_ofNat, val_lowBits]
    omega
  · change 2047 * 2 ^ 52 + 0 = _
    omega

theorem negative_ofRatio (negative : Bool) (numerator denominator : Nat) :
    (ofRatio negative numerator denominator).negative = negative := by
  rw [ofRatio_eq]
  generalize packedBits (numerator * 2 ^ 1074) denominator = packed
  split <;> rfl

/-- A significand has 53 bits, and is beyond them only by being rounded up. -/
theorem halfEven_le_two_pow {scaled denominator place : Nat}
    (hplace : place = (scaled / denominator).log2 - 52) :
    Rounding.halfEven scaled (denominator * 2 ^ place) ≤ 2 ^ 53 := by
  have hlt : scaled / (denominator * 2 ^ place) < 2 ^ 53 := by
    rw [← Nat.div_div_eq_div_mul, Nat.div_lt_iff_lt_mul (Nat.two_pow_pos place), ← Nat.pow_add]
    exact Nat.lt_of_lt_of_le Nat.lt_log2_self (Nat.pow_le_pow_right Nat.two_pos (by omega))
  exact (Rounding.halfEven_le_succ scaled _).trans hlt

/-- Beyond the smallest place, a significand has no fewer than 53 bits. -/
theorem two_pow_le_halfEven {scaled denominator place : Nat}
    (hplace : place = (scaled / denominator).log2 - 52) (hpos : 0 < place) :
    2 ^ 52 ≤ Rounding.halfEven scaled (denominator * 2 ^ place) := by
  have hne : scaled / denominator ≠ 0 := by
    intro hzero
    rw [hzero, Nat.log2_zero] at hplace
    omega
  have hlog : 52 + place = (scaled / denominator).log2 := by omega
  calc
    2 ^ 52 ≤ scaled / denominator / 2 ^ place := by
      rw [Nat.le_div_iff_mul_le (Nat.two_pow_pos place), ← Nat.pow_add, hlog]
      exact Nat.log2_self_le hne
    _ = scaled / (denominator * 2 ^ place) := Nat.div_div_eq_div_mul ..
    _ ≤ _ := Rounding.div_le_halfEven scaled _

theorem packedBits_mono (h : a ≤ b) (denominator : Nat) :
    packedBits a denominator ≤ packedBits b denominator := by
  unfold packedBits
  have hlog : (a / denominator).log2 ≤ (b / denominator).log2 := by
    rw [Nat.log2_eq_log_two, Nat.log2_eq_log_two]
    exact Nat.log_mono_right (Nat.div_le_div_right h)
  generalize hp : (a / denominator).log2 - 52 = p
  generalize hq : (b / denominator).log2 - 52 = q
  dsimp only
  rcases Nat.lt_or_eq_of_le (show p ≤ q by omega) with hlt | rfl
  · -- A greater place makes up for the significand.
    have hupper := halfEven_le_two_pow hp.symm
    have hlower := two_pow_le_halfEven hq.symm (by omega)
    generalize Rounding.halfEven a (denominator * 2 ^ p) = x at hupper ⊢
    generalize Rounding.halfEven b (denominator * 2 ^ q) = y at hlower ⊢
    omega
  · exact Nat.add_le_add_left (Rounding.halfEven_mono h) _

/-! ## Positions in the order -/

theorem rank_ofRatio_mono (h : a ≤ b) (denominator : Nat) :
    (ofRatio false a denominator).rank ≤ (ofRatio false b denominator).rank := by
  have hbits := packedBits_mono (Nat.mul_le_mul_right (2 ^ 1074) h) denominator
  unfold rank
  simp only [negative_ofRatio, magnitudeBits_ofRatio]
  simp only [Bool.false_eq_true, if_false]
  omega

theorem rank_ofRatio_antitone (h : a ≤ b) (denominator : Nat) :
    (ofRatio true b denominator).rank ≤ (ofRatio true a denominator).rank := by
  have hbits := packedBits_mono (Nat.mul_le_mul_right (2 ^ 1074) h) denominator
  unfold rank
  simp only [negative_ofRatio, magnitudeBits_ofRatio]
  simp only [if_true]
  omega

theorem rank_neg_lt (numerator other denominator : Nat) :
    (ofRatio true numerator denominator).rank < (ofRatio false other denominator).rank := by
  unfold rank
  simp only [negative_ofRatio]
  simp only [Bool.false_eq_true, if_false, if_true]
  omega

/-- The greater whole number is never the smaller double. -/
theorem rank_ofInt_mono {x y : Int} (h : x ≤ y) : (ofInt x).rank ≤ (ofInt y).rank := by
  unfold ofInt
  rcases lt_or_ge x 0 with hx | hx <;> rcases lt_or_ge y 0 with hy | hy
  · rw [decide_eq_true hx, decide_eq_true hy]
    exact rank_ofRatio_antitone (by omega) 1
  · rw [decide_eq_true hx, decide_eq_false (by omega)]
    exact (rank_neg_lt _ _ 1).le
  · omega
  · rw [decide_eq_false (by omega), decide_eq_false (by omega)]
    exact rank_ofRatio_mono (by omega) 1

end Binary64

end DocMapping
