import DocMapping.Calendar.Time
import DocMapping.Number.Rounding
import DocMapping.Proofs.Order
import Mathlib.Data.Nat.Basic

/-!
# The Order of Written Numbers

Texts are ordered by their characters.  Numbers of one width stand in the order of the texts of their
digits, and so do numbers from which zeros at the end were dropped.  Numbers of different widths are
ordered as texts by as many leading digits as both have, which is not their own order.
-/

namespace DocMapping.Text

/-! ## Texts -/

theorem compare_lists (l m : List Char) : compare l m = compareOfLessAndEq l m := by
  induction l generalizing m with
  | nil => cases m <;> simp [compareOfLessAndEq]
  | cons x xs ih =>
    cases m with
    | nil => simp [compareOfLessAndEq]
    | cons y ys =>
      rw [List.compare_cons_cons, ih]
      change (compareOfLessAndEq x y).then _ = _
      unfold compareOfLessAndEq
      by_cases hlt : x < y
      · rw [if_pos hlt, if_pos (List.cons_lt_cons_iff.2 (.inl hlt))]
        rfl
      · by_cases heq : x = y
        · cases heq
          simp only [List.cons_lt_cons_iff, hlt, false_or, true_and, List.cons.injEq, if_false,
            if_true, Ordering.eq_then]
        · have hcons : ¬x :: xs < y :: ys := fun h ↦
            (List.cons_lt_cons_iff.1 h).elim hlt fun h ↦ heq h.1
          rw [if_neg hlt, if_neg heq, if_neg hcons, if_neg fun h ↦ heq (List.cons.inj h).1]
          rfl

theorem compare_eq (s t : String) : compare s t = compare s.toList t.toList := by
  rw [compare_lists]
  change compareOfLessAndEq s t = _
  unfold compareOfLessAndEq
  simp only [String.lt_iff, String.toList_inj]

theorem compare_char (c d : Char) : compare c d = compare c.toNat d.toNat := by
  change compareOfLessAndEq c d = compareOfLessAndEq c.toNat d.toNat
  unfold compareOfLessAndEq
  simp only [Char.lt_def, UInt32.lt_iff_toNat_lt, Char.ext_iff, ← UInt32.toNat_inj]
  rfl

theorem compare_lists_append {l m : List Char} (h : l.length = m.length) (l' m' : List Char) :
    compare (l ++ l') (m ++ m') = (compare l m).then (compare l' m') := by
  induction l generalizing m with
  | nil =>
    cases List.length_eq_zero_iff.1 h.symm
    simp
  | cons c rest ih =>
    cases m with
    | nil => cases h
    | cons d rest' =>
      simp only [List.cons_append, List.compare_cons_cons]
      rw [ih (Nat.succ.inj h), Ordering.then_assoc]

/-- Texts that begin with parts of one length are ordered by these parts first. -/
theorem compare_append {s t : String} (h : s.toList.length = t.toList.length) (s' t' : String) :
    compare (s ++ s') (t ++ t') = (compare s t).then (compare s' t') := by
  simp only [compare_eq, String.toList_append, compare_lists_append h]

/-- A common end of two texts of one length does not matter. -/
theorem compare_append_right {s t : String} (h : s.toList.length = t.toList.length)
    (u : String) : compare (s ++ u) (t ++ u) = compare s t := by
  rw [compare_append h, Std.compare_self, Ordering.then_eq]

theorem compare_append_left (u s t : String) : compare (u ++ s) (u ++ t) = compare s t := by
  rw [compare_append rfl, Std.compare_self, Ordering.eq_then]

theorem length_append {s s' t t' : String} (hs : s.toList.length = s'.toList.length)
    (ht : t.toList.length = t'.toList.length) :
    (s ++ t).toList.length = (s' ++ t').toList.length := by
  rw [String.toList_append, String.toList_append, List.length_append, List.length_append, hs, ht]

/-- Three parts with marks between them, of which the first and the second have fixed lengths. -/
theorem compare_three {a a' b b' : String} (ha : a.toList.length = a'.toList.length)
    (hb : b.toList.length = b'.toList.length) (mark c c' : String) :
    compare (a ++ mark ++ b ++ mark ++ c) (a' ++ mark ++ b' ++ mark ++ c') =
      (compare a a').then ((compare b b').then (compare c c')) := by
  have hfirst := length_append ha (rfl : mark.toList.length = mark.toList.length)
  have hsecond := length_append hfirst hb
  have hthird := length_append hsecond (rfl : mark.toList.length = mark.toList.length)
  rw [compare_append hthird, compare_append_right hsecond, compare_append hfirst,
    compare_append_right ha, Ordering.then_assoc]

/-! ## Digits -/

/-- The last digits of a number, as many as the width. -/
def digits : Nat → Nat → List Char
  | 0, _ => []
  | width + 1, number => digits width (number / 10) ++ [Nat.digitChar (number % 10)]

theorem exists_of_mem_digits {width number : Nat} {c : Char} (h : c ∈ digits width number) :
    ∃ digit < 10, c = Nat.digitChar digit := by
  induction width generalizing number with
  | zero => cases h
  | succ width ih =>
    rcases List.mem_append.1 h with h | h
    · exact ih h
    · exact ⟨number % 10, Nat.mod_lt _ (by decide), List.mem_singleton.1 h⟩

@[simp] theorem length_digits (width number : Nat) : (digits width number).length = width := by
  induction width generalizing number with
  | zero => rfl
  | succ width ih => rw [digits, List.length_append, ih, List.length_singleton]

theorem compare_digitChar {a b : Nat} (ha : a < 10) (hb : b < 10) :
    compare a.digitChar b.digitChar = compare a b := by
  rw [compare_char, Nat.toNat_digitChar_of_lt_ten ha, Nat.toNat_digitChar_of_lt_ten hb]
  exact compare_keys (fun h ↦ by omega) (fun h ↦ by omega) fun h ↦ by omega

/-- Digits of one width stand in the order of the numbers. -/
theorem compare_digits {width a b : Nat} (ha : a < 10 ^ width) (hb : b < 10 ^ width) :
    compare (digits width a) (digits width b) = compare a b := by
  induction width generalizing a b with
  | zero =>
    rw [Nat.pow_zero, Nat.lt_one_iff] at ha hb
    rw [ha, hb]
    rfl
  | succ width ih =>
    rw [Nat.pow_succ] at ha hb
    have hfirst := ih (Nat.div_lt_of_lt_mul (Nat.mul_comm _ _ ▸ ha))
      (Nat.div_lt_of_lt_mul (Nat.mul_comm _ _ ▸ hb))
    calc
      _ = (compare (a / 10) (b / 10)).then (compare (a % 10) (b % 10)) := by
        rw [digits, digits, compare_lists_append (by simp), hfirst, List.compare_cons_cons,
          compare_digitChar (by omega) (by omega)]
        simp
      _ = compare (a / 10 * 10 + a % 10) (b / 10 * 10 + b % 10) :=
        DocMapping.compare_digits (by omega) (by omega)
      _ = compare a b := by rw [Nat.div_add_mod', Nat.div_add_mod']

theorem digits_zero (width : Nat) : digits width 0 = List.replicate width '0' := by
  induction width with
  | zero => rfl
  | succ width ih =>
    rw [digits, Nat.zero_div, ih, List.replicate_succ']
    rfl

/-- The digits of a number are those of its leading and of its last part. -/
theorem digits_add (width rest number : Nat) :
    digits (width + rest) number =
      digits width (number / 10 ^ rest) ++ digits rest (number % 10 ^ rest) := by
  induction rest generalizing number with
  | zero => simp [digits]
  | succ rest ih =>
    have hlead : number / 10 / 10 ^ rest = number / 10 ^ (rest + 1) := by
      rw [Nat.div_div_eq_div_mul, Nat.pow_succ, Nat.mul_comm]
    have hlast : number / 10 % 10 ^ rest = number % 10 ^ (rest + 1) / 10 := by
      rw [Nat.pow_succ, Nat.mod_mul_left_div_self]
    have hdigit : number % 10 ^ (rest + 1) % 10 = number % 10 :=
      Nat.mod_mod_of_dvd _ (Dvd.intro_left _ (Nat.pow_succ ..).symm)
    rw [← Nat.add_assoc, digits, ih, hlead, hlast, digits, hdigit, List.append_assoc]

/-- Zeros in front make up for the width. -/
theorem replicate_toDigits {width number : Nat} (hwidth : 0 < width) (h : number < 10 ^ width) :
    List.replicate (width - (Nat.toDigits 10 number).length) '0' ++ Nat.toDigits 10 number =
      digits width number := by
  induction width generalizing number with
  | zero => omega
  | succ width ih =>
    rcases Nat.lt_or_ge number 10 with hsmall | hlarge
    · rw [Nat.toDigits_of_lt_base hsmall, digits, Nat.div_eq_of_lt hsmall,
        Nat.mod_eq_of_lt hsmall, digits_zero]
      rfl
    · have hpos : 0 < width := by
        rcases Nat.eq_zero_or_pos width with rfl | hpos
        · omega
        · exact hpos
      have hlt : number / 10 < 10 ^ width := by
        rw [Nat.pow_succ, Nat.mul_comm] at h
        exact Nat.div_lt_of_lt_mul h
      rw [Nat.toDigits_eq_if (by decide), if_neg (by omega), digits, ← ih hpos hlt,
        List.length_append, List.length_singleton, Nat.add_sub_add_right, List.append_assoc]

theorem toDigits_eq (number : Nat) :
    Nat.toDigits 10 number = digits (Rounding.digitCount number) number := by
  have hlt : number < 10 ^ Rounding.digitCount number :=
    (Nat.length_toDigits_le_iff (by decide) Nat.length_toDigits_pos).1 le_rfl
  have hdigits := replicate_toDigits Nat.length_toDigits_pos hlt
  unfold Rounding.digitCount
  rwa [Nat.sub_self, List.replicate_zero, List.nil_append] at hdigits

theorem toList_padded {width number : Nat} (hwidth : 0 < width) (h : number < 10 ^ width) :
    (Time.padded width number).toList = digits width number := by
  rw [← replicate_toDigits hwidth h, Time.padded, String.toList_append, String.toList_ofList,
    Nat.toString_eq_ofList_toDigits, String.length_ofList, String.toList_ofList]

theorem length_padded {width number : Nat} (hwidth : 0 < width) (h : number < 10 ^ width) :
    (Time.padded width number).toList.length = width := by
  rw [toList_padded hwidth h, length_digits]

theorem compare_padded {width a b : Nat} (hwidth : 0 < width) (ha : a < 10 ^ width)
    (hb : b < 10 ^ width) : compare (Time.padded width a) (Time.padded width b) = compare a b := by
  rw [compare_eq, toList_padded hwidth ha, toList_padded hwidth hb, compare_digits ha hb]

/-! ## Zeros at the end -/

theorem digits_append_zeros (width rest number : Nat) :
    digits width number ++ List.replicate rest '0' = digits (width + rest) (number * 10 ^ rest) := by
  have hpos : 0 < 10 ^ rest := Nat.pow_pos (by decide)
  rw [digits_add, Nat.mul_div_cancel _ hpos, Nat.mul_mod_left, digits_zero]

theorem digits_ge {width number : Nat} : ∀ c ∈ digits width number, '0'.toNat ≤ c.toNat := by
  intro c hc
  obtain ⟨digit, hdigit, rfl⟩ := exists_of_mem_digits hc
  rw [Nat.toNat_digitChar_of_lt_ten hdigit]
  exact Nat.le_add_right 48 _

/-- A text is not put behind another one by zeros at the end, nor can it be where zeros are left
out. -/
theorem compare_of_zeros {l m : List Char} {j k : Nat} (hl : ∀ c ∈ l, '0'.toNat ≤ c.toNat)
    (h : compare (l ++ List.replicate j '0') (m ++ List.replicate k '0') = .lt)
    (hlength : l.length + j = m.length + k) : compare l m = .lt := by
  induction l generalizing m j k with
  | nil =>
    cases m with
    | nil =>
      rw [List.length_nil, Nat.zero_add, Nat.zero_add] at hlength
      rw [hlength, Std.compare_self] at h
      cases h
    | cons => exact List.compare_nil_cons
  | cons c rest ih =>
    rw [List.forall_mem_cons] at hl
    cases m with
    | nil =>
      obtain ⟨k, rfl⟩ : ∃ next, k = next + 1 := ⟨rest.length + j, by
        simp only [List.length_cons, List.length_nil] at hlength
        omega⟩
      rw [List.cons_append, List.nil_append, List.replicate_succ, List.compare_cons_cons,
        compare_char, Ordering.then_eq_lt] at h
      rcases h with h | ⟨-, h⟩
      · exact absurd (Std.compare_eq_lt.1 h) (Nat.not_lt.2 hl.1)
      · -- The rest would have to come before no text at all.
        have hrest : compare rest [] = .lt := by
          refine ih hl.2 h ?_
          simp only [List.length_cons, List.length_nil] at hlength ⊢
          omega
        cases rest <;> simp at hrest
    | cons d rest' =>
      rw [List.cons_append, List.cons_append, List.compare_cons_cons, Ordering.then_eq_lt] at h
      rw [List.compare_cons_cons, Ordering.then_eq_lt]
      refine h.imp_right fun h ↦ ⟨h.1, ih hl.2 h.2 ?_⟩
      simp only [List.length_cons] at hlength
      omega

/-! ## Numbers of any width -/

/-- The order of the texts of two numbers: by as many leading digits as both have, and where these
are the same the shorter one first. -/
def leadingOrder (a b : Nat) : Ordering :=
  let m := Rounding.digitCount a
  let n := Rounding.digitCount b
  (compare (a / 10 ^ (m - n)) (b / 10 ^ (n - m))).then (compare m n)

theorem compare_toDigits_of_le {a b : Nat}
    (h : Rounding.digitCount a ≤ Rounding.digitCount b) :
    compare (Nat.toDigits 10 a) (Nat.toDigits 10 b) = leadingOrder a b := by
  obtain ⟨rest, hrest⟩ := Nat.exists_eq_add_of_le h
  have ha : a < 10 ^ Rounding.digitCount a :=
    (Nat.length_toDigits_le_iff (by decide) Nat.length_toDigits_pos).1 le_rfl
  have hb : b < 10 ^ Rounding.digitCount b :=
    (Nat.length_toDigits_le_iff (by decide) Nat.length_toDigits_pos).1 le_rfl
  have hlead : b / 10 ^ rest < 10 ^ Rounding.digitCount a := by
    rw [hrest, Nat.pow_add, Nat.mul_comm] at hb
    exact Nat.div_lt_of_lt_mul hb
  have hlast : compare [] (digits rest (b % 10 ^ rest)) =
      compare (Rounding.digitCount a) (Rounding.digitCount b) := by
    rw [hrest]
    cases rest with
    | zero => simp [digits]
    | succ rest =>
      rw [Std.compare_eq_lt.2 (show Rounding.digitCount a < _ by omega)]
      cases hdigits : digits (rest + 1) (b % 10 ^ (rest + 1)) with
      | nil => simpa using congrArg List.length hdigits
      | cons => simp
  calc
    compare (Nat.toDigits 10 a) (Nat.toDigits 10 b) =
        compare (digits (Rounding.digitCount a) a ++ [])
          (digits (Rounding.digitCount a) (b / 10 ^ rest) ++ digits rest (b % 10 ^ rest)) := by
      rw [toDigits_eq a, toDigits_eq b, hrest, digits_add, List.append_nil]
    _ = (compare a (b / 10 ^ rest)).then
          (compare (Rounding.digitCount a) (Rounding.digitCount b)) := by
      rw [compare_lists_append (by simp), compare_digits ha hlead, hlast]
    _ = leadingOrder a b := by
      unfold leadingOrder
      dsimp only
      rw [Nat.sub_eq_zero_of_le h, Nat.pow_zero, Nat.div_one, hrest, Nat.add_sub_cancel_left]

theorem leadingOrder_swap (a b : Nat) : (leadingOrder a b).swap = leadingOrder b a := by
  unfold leadingOrder
  simp only [Ordering.swap_then, ← Std.OrientedOrd.eq_swap]

theorem compare_toDigits (a b : Nat) :
    compare (Nat.toDigits 10 a) (Nat.toDigits 10 b) = leadingOrder a b := by
  rcases Nat.le_total (Rounding.digitCount a) (Rounding.digitCount b) with h | h
  · exact compare_toDigits_of_le h
  · rw [Std.OrientedOrd.eq_swap (a := Nat.toDigits 10 a), compare_toDigits_of_le h,
      leadingOrder_swap]

/-- The order of the texts of two whole numbers.  A sign comes before all digits, and behind it the
magnitudes are in the order of their texts, not in the opposite one. -/
def writtenOrder (a b : Int) : Ordering :=
  if a < 0 then (if b < 0 then leadingOrder a.natAbs b.natAbs else .lt)
  else if b < 0 then .gt
  else leadingOrder a.natAbs b.natAbs

theorem toString_int (a : Int) :
    (toString a).toList = (if a < 0 then ['-'] else []) ++ Nat.toDigits 10 a.natAbs := by
  cases a with
  | ofNat n =>
    rw [if_neg (by simp)]
    exact String.toList_ofList
  | negSucc n =>
    rw [if_pos (Int.negSucc_lt_zero n)]
    exact String.toList_append.trans (congrArg _ String.toList_ofList)

theorem compare_sign_digits (a b : Nat) :
    compare ('-' :: Nat.toDigits 10 a) (Nat.toDigits 10 b) = .lt := by
  cases hdigits : Nat.toDigits 10 b with
  | nil => exact absurd hdigits Nat.toDigits_ne_nil
  | cons c rest =>
    have hdigit : c.isDigit = true :=
      Nat.isDigit_of_mem_toDigits (by decide) le_rfl (hdigits ▸ List.mem_cons_self)
    have hlt : compare '-' c = .lt := by
      rw [compare_char]
      have hc : 48 ≤ c.toNat := by
        simp only [Char.isDigit, Bool.and_eq_true, decide_eq_true_eq] at hdigit
        exact hdigit.1
      exact Std.compare_eq_lt.2 (Nat.lt_of_lt_of_le (by decide) hc)
    rw [List.compare_cons_cons, hlt]
    rfl

theorem compare_toString (a b : Int) : compare (toString a) (toString b) = writtenOrder a b := by
  rw [compare_eq, toString_int, toString_int]
  unfold writtenOrder
  split <;> split <;> simp only [List.singleton_append, List.nil_append]
  · rw [List.compare_cons_cons, Std.compare_self, Ordering.eq_then, compare_toDigits]
  · exact compare_sign_digits _ _
  · rw [Std.OrientedOrd.eq_swap, compare_sign_digits]
    rfl
  · exact compare_toDigits _ _

end DocMapping.Text
