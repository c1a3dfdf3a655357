import DocMapping.Calendar.Reading
import DocMapping.Codec.Numeral
import DocMapping.Proofs.Text.Order

/-!
# Reading Digits

Written numbers are read again: the value of digits is the number they were written for, and a reader
of numbers stops behind them.
-/

namespace DocMapping

namespace Text

theorem isDigit_digitChar {digit : Nat} (h : digit < 10) : digit.digitChar.isDigit = true := by
  have hall : ∀ d : Fin 10, (Nat.digitChar d.val).isDigit = true := by decide
  exact hall ⟨digit, h⟩

/-- Digits have no case. -/
theorem toLower_of_isDigit {c : Char} (h : c.isDigit = true) : c.toLower = c := by
  obtain ⟨-, hnine⟩ := Bool.and_eq_true_iff.1 h
  unfold Char.toLower
  exact dif_neg fun hupper ↦
    absurd (UInt32.le_trans hupper.1 (of_decide_eq_true hnine)) (by decide)

theorem isDigit_digits {width number : Nat} : ∀ c ∈ digits width number, c.isDigit = true := by
  intro c hc
  obtain ⟨digit, hdigit, rfl⟩ := exists_of_mem_digits hc
  exact isDigit_digitChar hdigit

/-- Digits behind a number that was read so far. -/
theorem foldl_digits (width number start : Nat) :
    (digits width number).foldl (fun total c ↦ total * 10 + (c.toNat - '0'.toNat)) start =
      start * 10 ^ width + number % 10 ^ width := by
  induction width generalizing number with
  | zero =>
    rw [Nat.pow_zero, Nat.mul_one, Nat.mod_one]
    rfl
  | succ width ih =>
    have hlast : (number % 10).digitChar.toNat - '0'.toNat = number % 10 := by
      rw [Nat.toNat_digitChar_of_lt_ten (Nat.mod_lt _ (by decide))]
      exact Nat.add_sub_cancel_left 48 _
    have hparts : number % 10 ^ (width + 1) = number / 10 % 10 ^ width * 10 + number % 10 := by
      rw [Nat.pow_succ', Nat.mod_mul]
      omega
    rw [digits, List.foldl_append, ih, List.foldl_cons, List.foldl_nil, hlast, hparts,
      Nat.pow_succ]
    ring

theorem value_digits {width number : Nat} (h : number < 10 ^ width) :
    Reading.value (digits width number) = number := by
  rw [Reading.value, foldl_digits, Nat.zero_mul, Nat.zero_add, Nat.mod_eq_of_lt h]

theorem digitsValue_digits {width number : Nat} (h : number < 10 ^ width) :
    Binary64.digitsValue (digits width number) = number :=
  value_digits h

theorem lt_pow_digitCount (number : Nat) : number < 10 ^ Rounding.digitCount number :=
  (Nat.length_toDigits_le_iff (by decide) Nat.length_toDigits_pos).1 le_rfl

end Text

namespace Reading

/-- Digits are read up to the greatest number of them, or up to another character. -/
theorem number?_append {least most : Nat} {l rest : List Char} (hl : ∀ c ∈ l, c.isDigit = true)
    (hleast : least ≤ l.length) (hmost : l.length ≤ most)
    (hend : l.length = most ∨ ∀ c ∈ rest.head?, c.isDigit = false) :
    number? least most (l ++ rest) = some (value l, rest) := by
  have hread : ((l ++ rest).take most).takeWhile Char.isDigit = l := by
    obtain ⟨further, rfl⟩ := Nat.exists_eq_add_of_le hmost
    have hstop : (rest.take further).takeWhile Char.isDigit = [] := by
      cases rest with
      | nil => simp
      | cons c rest =>
        cases further with
        | zero => rfl
        | succ further =>
          have hc := hend.resolve_left (by omega) c rfl
          rw [List.take_succ_cons, List.takeWhile_cons, hc]
          rfl
    rw [List.take_length_add_append, List.takeWhile_append_of_pos hl, hstop, List.append_nil]
  unfold number?
  dsimp only
  rw [hread, if_neg (Nat.not_lt.2 hleast), List.drop_left]

end Reading

theorem Text.length_bytesOfNat (count number : Nat) : (bytesOfNat count number).length = count := by
  induction count with
  | zero => rfl
  | succ count ih => rw [bytesOfNat, List.length_cons, ih]

/-! ## Whole numbers -/

/-- What begins with a digit has no sign. -/
theorem Binary64.splitSign_digits {l : List Char} (hl : ∀ c ∈ l, c.isDigit = true) (hne : l ≠ [])
    (rest : List Char) : splitSign (l ++ rest) = (false, l ++ rest) := by
  obtain ⟨c, others, rfl⟩ := List.exists_cons_of_ne_nil hne
  have hdigit := hl c List.mem_cons_self
  rw [List.cons_append]
  unfold splitSign
  split
  · next hminus =>
    cases hminus
    cases hdigit
  · next hplus =>
    cases hplus
    cases hdigit
  · rfl

/-- A sign that is written is split off again. -/
theorem Binary64.splitSign_sign {l : List Char} (negative : Bool) (hl : ∀ c ∈ l, c.isDigit = true)
    (hne : l ≠ []) (rest : List Char) :
    splitSign ((if negative then "-" else "").toList ++ (l ++ rest)) = (negative, l ++ rest) := by
  cases negative with
  | true => rfl
  | false => exact splitSign_digits hl hne rest

theorem Binary64.splitSign_cases (l : List Char) :
    l = (splitSign l).2 ∨ l = '-' :: (splitSign l).2 ∨ l = '+' :: (splitSign l).2 := by
  unfold splitSign
  split
  · exact .inr (.inl rfl)
  · exact .inr (.inr rfl)
  · exact .inl rfl

namespace Numeral

/-- The text of a whole number of 64 bits is read as this number. -/
theorem integerOfText?_toString (number : Int64) :
    integerOfText? (toString number.toInt) = some number := by
  have hlow := number.le_toInt
  have hhigh := number.toInt_lt
  have hlt := Text.lt_pow_digitCount number.toInt.natAbs
  have hne : Text.digits (Rounding.digitCount number.toInt.natAbs) number.toInt.natAbs ≠ [] := by
    rw [← Text.toDigits_eq]
    exact Nat.toDigits_ne_nil
  have hsplit : Binary64.splitSign (toString number.toInt).toList =
      (decide (number.toInt < 0),
        Text.digits (Rounding.digitCount number.toInt.natAbs) number.toInt.natAbs) := by
    rw [Text.toString_int, Text.toDigits_eq]
    split
    · next hneg =>
      rw [decide_eq_true hneg]
      rfl
    · next hpos =>
      rw [decide_eq_false hpos, ← List.append_nil (Text.digits _ _)]
      exact Binary64.splitSign_digits Text.isDigit_digits hne []
  have hnumber : (if number.toInt < 0 then -(number.toInt.natAbs : Int) else number.toInt.natAbs) =
      number.toInt := by omega
  unfold integerOfText?
  rw [hsplit]
  dsimp only
  rw [Text.digitsValue_digits hlt]
  simp only [decide_eq_true_eq]
  have hempty := List.isEmpty_eq_false_iff.2 hne
  have hall : (Text.digits (Rounding.digitCount number.toInt.natAbs) number.toInt.natAbs).all
      Char.isDigit = true := List.all_eq_true.2 Text.isDigit_digits
  rw [hnumber, hempty, hall, decide_eq_false (by omega), decide_eq_false (by omega),
    if_neg (by decide), Int64.ofInt_toInt]

end Numeral

end DocMapping
