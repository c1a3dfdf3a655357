import DocMapping.Proofs.Number.Decimal
import DocMapping.Proofs.Text.Digits

/-!
# Reading Written Numbers

The text of every number is read as a number: of a decimal as long as its digits leave neither the 96
bits nor the 28 places after the point, which they never do, and of a double since its text is digits
with at most one point, or a name.  Which number is read is another question.
-/

namespace DocMapping

/-- Digits, alone or with a point and more digits behind it: the coefficient with its places. -/
def IsPlainText (text : List Char) (coefficient places : Nat) : Prop :=
  ∃ whole part : List Char, (∀ c ∈ whole ++ part, c.isDigit = true) ∧ whole ≠ [] ∧
    Binary64.digitsValue (whole ++ part) = coefficient ∧ part.length = places ∧
    text = whole ++ if places = 0 then [] else '.' :: part

namespace IsPlainText

variable {text : List Char} {coefficient places : Nat}

/-- A text without a point is its digits. -/
theorem digits (h : IsPlainText text coefficient 0) :
    (∀ c ∈ text, c.isDigit = true) ∧ text ≠ [] ∧ Binary64.digitsValue text = coefficient := by
  obtain ⟨whole, part, hdigits, hne, hvalue, hpart, rfl⟩ := h
  obtain rfl : part = [] := List.length_eq_zero_iff.1 hpart
  exact ⟨hdigits, by rwa [if_pos rfl, List.append_nil], hvalue⟩

theorem places_eq_zero (h : IsPlainText text coefficient places)
    (hdigits : ∀ c ∈ text, c.isDigit = true) : places = 0 := by
  obtain ⟨whole, part, -, -, -, -, rfl⟩ := h
  by_contra hpoint
  rw [if_neg hpoint] at hdigits
  cases hdigits '.' (List.mem_append_right _ List.mem_cons_self)

end IsPlainText

/-! ## Decimals -/

namespace Decimal

variable {negative started : Bool} {coefficient scale : Nat} {l rest : List Char}

/-- The value of digits behind those that were read so far. -/
def continued (coefficient : Nat) (l : List Char) : Nat :=
  l.foldl (fun total c ↦ total * 10 + (c.toNat - '0'.toNat)) coefficient

theorem le_continued (coefficient : Nat) (l : List Char) : coefficient ≤ continued coefficient l := by
  induction l generalizing coefficient with
  | nil => exact le_rfl
  | cons c rest ih =>
    have hstep : coefficient ≤ coefficient * 10 + (c.toNat - '0'.toNat) := by omega
    exact hstep.trans (ih _)

/-- Digits in front of the point. -/
theorem readDigits?_whole (hl : ∀ c ∈ l, c.isDigit = true) (hvalue : continued coefficient l < 2 ^ 96) :
    readDigits? negative false started coefficient 0 (l ++ rest) =
      readDigits? negative false (started || !l.isEmpty) (continued coefficient l) 0 rest := by
  induction l generalizing coefficient started with
  | nil => rw [List.isEmpty_nil, Bool.not_true, Bool.or_false]; rfl
  | cons c l ih =>
    obtain ⟨hc, hl⟩ := List.forall_mem_cons.1 hl
    have hnext : coefficient * 10 + (c.toNat - '0'.toNat) < 2 ^ 96 :=
      (le_continued _ l).trans_lt hvalue
    rw [List.cons_append, readDigits?, digit?, if_pos hc]
    dsimp only
    rw [if_neg (Nat.not_le.2 hnext), Bool.not_false, if_pos rfl, ih hl hvalue, Bool.true_or,
      List.isEmpty_cons, Bool.not_false, Bool.or_true]
    rfl

/-- Digits behind the point. -/
theorem readDigits?_fraction (hl : ∀ c ∈ l, c.isDigit = true)
    (hvalue : continued coefficient l < 2 ^ 96) (hscale : scale + l.length ≤ 28) :
    (readDigits? negative true true coefficient scale l).isSome = true := by
  induction l generalizing coefficient scale with
  | nil => exact ofParts?_isSome negative hvalue (Nat.lt_succ_of_le hscale)
  | cons c l ih =>
    obtain ⟨hc, hl⟩ := List.forall_mem_cons.1 hl
    have hnext : coefficient * 10 + (c.toNat - '0'.toNat) < 2 ^ 96 :=
      (le_continued _ l).trans_lt hvalue
    rw [List.length_cons] at hscale
    rw [readDigits?, digit?, if_pos hc]
    dsimp only
    rw [if_neg (Nat.not_le.2 hnext), Bool.not_true, if_neg Bool.false_ne_true]
    split
    · exact ih hl hvalue (by omega)
    · obtain rfl : l = [] := List.length_eq_zero_iff.1 (by omega)
      exact ofParts?_isSome negative hnext (by omega)

/-- The written coefficient has a digit in front of the point, and as many behind it as the scale. -/
theorem isPlainText_pointText (coefficient scale : Nat) :
    IsPlainText (pointText coefficient scale).toList coefficient scale := by
  have hlength : (Nat.toDigits 10 coefficient).length ≤
      max (scale + 1) (Nat.toDigits 10 coefficient).length := Nat.le_max_right ..
  have hlt : coefficient < 10 ^ max (scale + 1) (Nat.toDigits 10 coefficient).length :=
    (Text.lt_pow_digitCount coefficient).trans_le (Nat.pow_le_pow_right (by decide) hlength)
  have hdigits : List.replicate (scale + 1 - (Nat.toDigits 10 coefficient).length) '0' ++
      Nat.toDigits 10 coefficient =
        Text.digits (max (scale + 1) (Nat.toDigits 10 coefficient).length) coefficient := by
    rw [← Text.replicate_toDigits (by omega) hlt]
    congr 2
    omega
  unfold pointText
  dsimp only
  rw [hdigits]
  have hall : ∀ c ∈ Text.digits (max (scale + 1) (Nat.toDigits 10 coefficient).length) coefficient,
      c.isDigit = true := Text.isDigit_digits
  have hvalue := Text.value_digits hlt
  have hcount := Text.length_digits (max (scale + 1) (Nat.toDigits 10 coefficient).length) coefficient
  generalize Text.digits (max (scale + 1) (Nat.toDigits 10 coefficient).length) coefficient = digits
    at hall hvalue hcount
  refine ⟨digits.take (digits.length - scale), digits.drop (digits.length - scale), ?_, ?_, ?_, ?_, ?_⟩
  · rwa [List.take_append_drop]
  · rw [← List.length_pos_iff, List.length_take]
    omega
  · rw [List.take_append_drop]
    exact hvalue
  · rw [List.length_drop]
    omega
  · split
    · next hzero =>
      rw [hzero, Nat.sub_zero, List.take_length, List.append_nil, String.toList_ofList]
    · simp only [String.toList_append, String.toList_ofList, List.append_assoc]
      rfl

theorem readDigits?_pointText (negative : Bool) (d : Decimal) :
    (readDigits? negative false false 0 0
      (pointText d.coefficient.val d.scale.val).toList).isSome = true := by
  obtain ⟨whole, part, hdigits, hne, hvalue, hpart, htext⟩ :=
    isPlainText_pointText d.coefficient.val d.scale.val
  obtain ⟨hwhole, hfraction⟩ := List.forall_mem_append.1 hdigits
  have hcoefficient := d.coefficient.isLt
  have hscale := d.scale.isLt
  have hsplit : continued (continued 0 whole) part = d.coefficient.val := by
    rw [← hvalue]
    exact (List.foldl_append ..).symm
  have hfirst : continued 0 whole < 2 ^ 96 := by
    have hle := le_continued (continued 0 whole) part
    omega
  rw [htext, readDigits?_whole hwhole hfirst, List.isEmpty_eq_false_iff.2 hne]
  split
  · exact ofParts?_isSome negative hfirst (by decide)
  · exact readDigits?_fraction hfraction (hsplit ▸ hcoefficient) (by omega)

theorem ofPlain?_eq (l : List Char) : ofPlain? l =
    readDigits? (Binary64.splitSign l).1 false false 0 0 (Binary64.splitSign l).2 := by
  unfold ofPlain?
  split
  · rfl
  · rfl
  · next hminus hplus =>
    rw [Binary64.splitSign]
    · exact hminus
    · exact hplus

/-- Every decimal is written in a form that is read as a decimal. -/
theorem ofText?_text (d : Decimal) : (ofText? d.text).isSome = true := by
  obtain ⟨whole, part, hdigits, hne, -, -, htext⟩ :=
    isPlainText_pointText d.coefficient.val d.scale.val
  have hplain : (ofPlain? d.text.toList).isSome = true := by
    have hread := readDigits?_pointText d.negative d
    unfold text
    rw [ofPlain?_eq, String.toList_append]
    rw [htext] at hread ⊢
    rwa [Binary64.splitSign_sign d.negative (List.forall_mem_append.1 hdigits).1 hne]
  rw [ofText?, Option.isSome_or, hplain, Bool.true_or]

/-- Digits in front of the point that leave the 96 bits. -/
theorem readDigits?_wide (hl : ∀ c ∈ l, c.isDigit = true) (hstart : coefficient < 2 ^ 96)
    (hvalue : 2 ^ 96 ≤ continued coefficient l) :
    readDigits? negative false started coefficient scale l = none := by
  induction l generalizing coefficient started with
  | nil => exact absurd hstart (Nat.not_lt.2 hvalue)
  | cons c l ih =>
    obtain ⟨hc, hl⟩ := List.forall_mem_cons.1 hl
    rw [readDigits?, digit?, if_pos hc]
    dsimp only
    split
    · rfl
    · next hnext => exact ih hl (Nat.not_le.1 hnext) hvalue

theorem ofScientific?_of_digits {text : List Char}
    (hdigits : ∀ c ∈ (Binary64.splitSign text).2, c.isDigit = true) : ofScientific? text = none := by
  have hmark (c : Char) (hc : c ∈ text) : (!decide (c = 'e' ∨ c = 'E')) = true := by
    obtain rfl | rfl | hdigit : c = '-' ∨ c = '+' ∨ c ∈ (Binary64.splitSign text).2 := by
      rcases Binary64.splitSign_cases text with htext | htext | htext <;> rw [htext] at hc
      · exact .inr (.inr hc)
      · exact (List.mem_cons.1 hc).imp_right .inr
      · exact .inr (List.mem_cons.1 hc)
    · rfl
    · rfl
    · rw [Bool.not_eq_true', decide_eq_false_iff_not]
      rintro (rfl | rfl) <;> cases hdigits _ hdigit
  have hrest : text.dropWhile (fun c ↦ !decide (c = 'e' ∨ c = 'E')) = [] := by
    rw [← List.append_nil text, List.dropWhile_append_of_pos hmark]
    rfl
  unfold ofScientific?
  dsimp only
  rw [hrest]
  cases ofPlain? (text.takeWhile fun c ↦ !decide (c = 'e' ∨ c = 'E')) <;> rfl

/-- Digits alone, after a sign or without one, are read as they are, up to the 96 bits. -/
theorem ofText?_of_digits {text : String} (hsplit : Binary64.splitSign text.toList = (negative, l))
    (hl : ∀ c ∈ l, c.isDigit = true) (hne : l ≠ []) :
    ofText? text = ofParts? negative (Binary64.digitsValue l) 0 := by
  have hvalue : Binary64.digitsValue l = continued 0 l := rfl
  unfold ofText?
  rw [ofPlain?_eq, hsplit, hvalue]
  dsimp only
  rcases Nat.lt_or_ge (continued 0 l) (2 ^ 96) with hnarrow | hwide
  · have hread : readDigits? negative false false 0 0 (l ++ []) =
        readDigits? negative false (false || !l.isEmpty) (continued 0 l) 0 [] :=
      readDigits?_whole hl hnarrow
    rw [List.append_nil, List.isEmpty_eq_false_iff.2 hne] at hread
    rw [hread]
    exact Option.or_of_isSome (ofParts?_isSome negative hnarrow (by decide))
  · rw [readDigits?_wide hl (by decide) hwide, Option.none_or,
      ofScientific?_of_digits (by rwa [hsplit]), ofParts?, ofSigned?, dif_neg (by omega)]
    rfl

end Decimal

/-! ## Doubles -/

namespace Binary64

variable {coefficient places : Nat}

theorem readNumeral?_of_isPlainText {text : List Char} (h : IsPlainText text coefficient places)
    (negative : Bool) :
    readNumeral? negative text = some (ofDecimal negative coefficient (-(places : Int))) := by
  obtain ⟨whole, part, hdigits, hne, rfl, rfl, rfl⟩ := h
  obtain ⟨hwhole, hpart⟩ := List.forall_mem_append.1 hdigits
  have hstart : whole.isEmpty = false := List.isEmpty_eq_false_iff.2 hne
  unfold readNumeral?
  split
  · next hnone =>
    obtain rfl : part = [] := List.length_eq_zero_iff.1 hnone
    rw [List.takeWhile_append_of_pos hwhole, List.dropWhile_append_of_pos hwhole]
    simp [hstart, readExponent?]
  · have htake : (whole ++ '.' :: part).takeWhile Char.isDigit = whole := by
      rw [List.takeWhile_append_of_pos hwhole, List.takeWhile_cons]
      exact List.append_nil _
    have hdrop : (whole ++ '.' :: part).dropWhile Char.isDigit = '.' :: part := by
      rw [List.dropWhile_append_of_pos hwhole, List.dropWhile_cons]
      rfl
    have hfraction : part.takeWhile Char.isDigit = part := by
      rw [← List.append_nil part, List.takeWhile_append_of_pos hpart]
      rfl
    have hrest : part.dropWhile Char.isDigit = [] := by
      rw [← List.append_nil part, List.dropWhile_append_of_pos hpart]
      rfl
    rw [htake, hdrop]
    simp [hstart, hfraction, hrest, readExponent?]

theorem splitSign_of_isPlainText {text : String} (h : IsPlainText text.toList coefficient places)
    (negative : Bool) :
    splitSign ((if negative then "-" else "") ++ text).toList = (negative, text.toList) := by
  obtain ⟨whole, part, hdigits, hne, -, -, hrest⟩ := h
  rw [String.toList_append, hrest]
  exact splitSign_sign negative (List.forall_mem_append.1 hdigits).1 hne _

/-- Behind an optional sign, such a text is read as a number and not as a name. -/
theorem ofText?_of_isPlainText {text : String} (h : IsPlainText text.toList coefficient places)
    (negative : Bool) : ofText? ((if negative then "-" else "") ++ text) =
      some (ofDecimal negative coefficient (-(places : Int))) := by
  have hread := readNumeral?_of_isPlainText h negative
  have hsplit := splitSign_of_isPlainText h negative
  obtain ⟨whole, part, hdigits, hne, -, -, hrest⟩ := h
  have hname {name : String} (hletter : name.toList.head?.any Char.isDigit = false) :
      String.ofList (text.toList.map Char.toLower) ≠ name := by
    rintro rfl
    obtain ⟨c, others, rfl⟩ := List.exists_cons_of_ne_nil hne
    have hdigit := hdigits c List.mem_cons_self
    have hlower : c.toLower.isDigit = false := by rwa [String.toList_ofList, hrest] at hletter
    rw [Text.toLower_of_isDigit hdigit, hdigit] at hlower
    cases hlower
  unfold ofText?
  rw [hsplit]
  dsimp only
  rw [if_neg (not_or.2 ⟨hname rfl, hname rfl⟩), if_neg (hname rfl), hread]

theorem isDigit_zeros {count : Nat} : ∀ c ∈ List.replicate count '0', c.isDigit = true :=
  fun c hc ↦ by rw [List.eq_of_mem_replicate hc]; rfl

theorem digitsValue_append_zeros (l : List Char) (count : Nat) :
    digitsValue (l ++ List.replicate count '0') = digitsValue l * 10 ^ count := by
  induction count with
  | zero => simp
  | succ count ih =>
    unfold digitsValue at ih ⊢
    rw [List.replicate_succ', ← List.append_assoc, List.foldl_append, ih, Nat.pow_succ]
    exact Nat.mul_assoc (digitsValue l) _ _

theorem digitsValue_zeros_append (count : Nat) (l : List Char) :
    digitsValue (List.replicate count '0' ++ l) = digitsValue l := by
  unfold digitsValue
  rw [List.foldl_append]
  congr 1
  induction count with
  | zero => rfl
  | succ count ih => exact ih

/-- Running texts have no exponent. -/
theorem isPlainText_positionalText {digits : String} (hdigits : ∀ c ∈ digits.toList, c.isDigit = true)
    (hne : digits.toList ≠ []) (exponent : Int) :
    IsPlainText (positionalText plainStyle digits exponent).toList
      (digitsValue digits.toList * 10 ^ exponent.toNat) (-exponent).toNat := by
  have hlength : digits.length = digits.toList.length := rfl
  have hpos := List.length_pos_iff.2 hne
  unfold positionalText
  dsimp only
  split
  · next hwhole =>
    refine ⟨digits.toList ++ List.replicate exponent.toNat '0', [], ?_, by simp [hne], ?_, ?_, ?_⟩
    · rw [List.append_nil, List.forall_mem_append]
      exact ⟨hdigits, isDigit_zeros⟩
    · rw [List.append_nil, digitsValue_append_zeros]
    · rw [List.length_nil]
      omega
    · change (digits ++ String.ofList (List.replicate exponent.toNat '0') ++ "").toList = _
      rw [String.append_empty, String.toList_append, String.toList_ofList, if_pos (by omega),
        List.append_nil]
  · next hpart =>
    have hpower : exponent.toNat = 0 := by omega
    have hpoint : (-exponent).toNat ≠ 0 := by omega
    rw [hpower, Nat.pow_zero, Nat.mul_one]
    split
    · next hwhole =>
      refine ⟨digits.toList.take ((digits.length : Int) + exponent).toNat,
        digits.toList.drop ((digits.length : Int) + exponent).toNat, ?_, ?_, ?_, ?_, ?_⟩
      · rwa [List.take_append_drop]
      · rw [← List.length_pos_iff, List.length_take]
        omega
      · rw [List.take_append_drop]
      · rw [List.length_drop]
        omega
      · simp only [String.toList_append, String.toList_ofList, List.append_assoc, if_neg hpoint]
        rfl
    · refine ⟨['0'], List.replicate (-((digits.length : Int) + exponent)).toNat '0' ++ digits.toList,
        ?_, by simp, ?_, ?_, ?_⟩
      · simp only [List.forall_mem_append, List.forall_mem_singleton]
        exact ⟨rfl, isDigit_zeros, hdigits⟩
      · rw [← List.append_assoc]
        exact digitsValue_zeros_append ((-((digits.length : Int) + exponent)).toNat + 1) digits.toList
      · rw [List.length_append, List.length_replicate]
        omega
      · change ("0." ++ String.ofList (List.replicate (-((digits.length : Int) + exponent)).toNat '0') ++
          digits).toList = _
        simp only [String.toList_append, String.toList_ofList, List.append_assoc, if_neg hpoint]
        rfl

/-- The text of a finite number other than zero is its digits. -/
theorem plainText_eq {x : Binary64} (hnan : x.isNaN = false) (hfinite : x.isInfinite = false)
    (hzero : x.isZero = false) : x.plainText = (if x.negative then "-" else "") ++
      positionalText plainStyle (toString x.digits.coefficient) x.digits.exponent := by
  have hpositional (leading : Int) : plainStyle.positional leading = true := rfl
  unfold plainText text
  rw [hnan, hfinite, hzero]
  dsimp only
  rw [if_neg Bool.false_ne_true, if_neg Bool.false_ne_true, if_neg Bool.false_ne_true,
    if_pos (hpositional _)]

theorem plainText_of_isZero {x : Binary64} (hnan : x.isNaN = false)
    (hfinite : x.isInfinite = false) (hzero : x.isZero = true) :
    x.plainText = (if x.negative then "-" else "") ++ "0" := by
  unfold plainText text
  rw [hnan, hfinite, hzero]
  dsimp only
  rw [if_neg Bool.false_ne_true, if_neg Bool.false_ne_true, if_pos rfl]
  exact String.append_empty

theorem isPlainText_digits (coefficient : Nat) (exponent : Int) :
    IsPlainText (positionalText plainStyle (toString coefficient) exponent).toList
      (coefficient * 10 ^ exponent.toNat) (-exponent).toNat := by
  have hdigits : (toString coefficient).toList =
      Text.digits (Rounding.digitCount coefficient) coefficient := by
    rw [Nat.toString_eq_ofList_toDigits, String.toList_ofList, Text.toDigits_eq]
  have hvalue : digitsValue (toString coefficient).toList = coefficient := by
    rw [hdigits, Text.digitsValue_digits (Text.lt_pow_digitCount coefficient)]
  have hall : ∀ c ∈ (toString coefficient).toList, c.isDigit = true := by
    rw [hdigits]
    exact Text.isDigit_digits
  have hne : (toString coefficient).toList ≠ [] := by
    rw [hdigits, ← Text.toDigits_eq]
    exact Nat.toDigits_ne_nil
  have hplain := isPlainText_positionalText hall hne exponent
  rwa [hvalue] at hplain

/-- Every double is written in a form that is read as a double. -/
theorem ofText?_plainText_isSome (x : Binary64) : (ofText? x.plainText).isSome = true := by
  cases hnan : x.isNaN with
  | true =>
    unfold plainText text
    rw [hnan, if_pos rfl]
    rfl
  | false =>
    cases hinfinite : x.isInfinite with
    | true =>
      unfold plainText text
      rw [hnan, hinfinite, if_neg Bool.false_ne_true]
      dsimp only
      rw [if_pos rfl]
      cases x.negative <;> rfl
    | false =>
      cases hzero : x.isZero with
      | true =>
        rw [plainText_of_isZero hnan hinfinite hzero]
        cases x.negative <;> rfl
      | false =>
        rw [plainText_eq hnan hinfinite hzero, ofText?_of_isPlainText (isPlainText_digits _ _),
          Option.isSome_some]

end Binary64

/-! ## Numerals -/

namespace Numeral

variable {text : String} {number : Int64}

theorem integerOfText?_eq_some (h : integerOfText? text = some number) : ∃ negative l,
    Binary64.splitSign text.toList = (negative, l) ∧ (∀ c ∈ l, c.isDigit = true) ∧ l ≠ [] ∧
      number.toInt = if negative then -(Binary64.digitsValue l : Int)
        else Binary64.digitsValue l := by
  unfold integerOfText? at h
  rcases hsplit : Binary64.splitSign text.toList with ⟨negative, l⟩
  rw [hsplit] at h
  dsimp only at h
  refine ⟨negative, l, rfl, ?_⟩
  generalize (if negative then -(Binary64.digitsValue l : Int) else Binary64.digitsValue l) = value
    at h ⊢
  split at h
  · cases h
  · next hread =>
    cases h
    simp only [Bool.or_eq_true, decide_eq_true_eq, List.isEmpty_iff, Bool.not_eq_true',
      not_or, Bool.not_eq_false, List.all_eq_true] at hread
    obtain ⟨⟨⟨hne, hdigits⟩, hlow⟩, hhigh⟩ := hread
    exact ⟨hdigits, hne, Int64.toInt_ofInt_of_le (by omega) (by omega)⟩

/-- What is a whole number to the first reader is the same decimal to the second. -/
theorem exists_decimal_of_integerOfText? (h : integerOfText? text = some number) :
    ∃ d, Decimal.ofText? text = some d ∧ d.signedCoefficient = number.toInt ∧ d.scale = 0 := by
  obtain ⟨negative, l, hsplit, hdigits, hne, hvalue⟩ := integerOfText?_eq_some h
  have hlow := number.le_toInt
  have hhigh := number.toInt_lt
  have hwidth : Binary64.digitsValue l < 2 ^ 96 := by
    split at hvalue <;> omega
  obtain ⟨d, hd⟩ := Option.isSome_iff_exists.1
    (Decimal.ofParts?_isSome negative hwidth (by decide : 0 < 29))
  obtain ⟨hsigned, hscale⟩ := Decimal.signedCoefficient_ofParts? hd
  exact ⟨d, (Decimal.ofText?_of_digits hsplit hdigits hne).trans hd, hsigned.trans hvalue.symm,
    Fin.ext hscale⟩

end Numeral

/-- Every number is written in a form that is read as a number. -/
theorem Numeral.ofText?_text (n : Numeral) : (ofText? n.text).isSome = true := by
  unfold ofText? text
  cases n with
  | integer value =>
    dsimp only
    rw [integerOfText?_toString]
    rfl
  | decimal value =>
    obtain ⟨read, hread⟩ := Option.isSome_iff_exists.1 value.ofText?_text
    dsimp only
    rw [hread]
    cases integerOfText? value.text <;> rfl
  | double value =>
    obtain ⟨read, hread⟩ := Option.isSome_iff_exists.1 value.ofText?_plainText_isSome
    dsimp only
    rw [hread]
    cases integerOfText? value.plainText <;> cases Decimal.ofText? value.plainText <;> rfl

end DocMapping
