import DocMapping.Identifier
import Mathlib.Data.List.Induction
import Mathlib.Data.Nat.Init

/-!
# Reading Identifiers

Hexadecimal digits are written in lower case and read in either.  A number is read from its own
digits, and a text that is read has the digits of its number but for their case.  Identifiers of both
kinds are therefore read from their texts as they were.
-/

namespace DocMapping

namespace Text

variable {digits : List Char} {width number value : Nat} {c : Char}

/-! ## Single digits -/

theorem hexValue?_digitChar (h : value < 16) : hexValue? value.digitChar = some value := by
  have hall : ∀ v : Fin 16, hexValue? (Nat.digitChar v.val) = some v.val := by decide
  exact hall ⟨value, h⟩

theorem toNat_lt_of_hexValue? (h : hexValue? c = some value) : c.toNat < 128 := by
  have hbelow {last : Char} (hlast : c ≤ last) (hascii : last.toNat < 128) : c.toNat < 128 :=
    Nat.lt_of_le_of_lt hlast hascii
  unfold hexValue? at h
  split at h
  · next hdigit =>
    have hnine : c ≤ '9' := of_decide_eq_true (Bool.and_eq_true_iff.1 hdigit).2
    exact hbelow hnine (by decide)
  · split at h
    · next hlower => exact hbelow hlower.2 (by decide)
    · split at h
      · next hupper => exact hbelow hupper.2 (by decide)
      · cases h

/-- The digit of a value is the character it was read from, in lower case. -/
theorem digitChar_of_hexValue? (h : hexValue? c = some value) :
    value < 16 ∧ value.digitChar = c.toLower := by
  have hall : ∀ code : Fin 128, ∀ v ∈ hexValue? (Char.ofNat code.val),
      v < 16 ∧ v.digitChar = (Char.ofNat code.val).toLower := by decide
  have hchar := hall ⟨c.toNat, toNat_lt_of_hexValue? h⟩ value
  rw [Char.ofNat_toNat] at hchar
  exact hchar h

/-! ## Rows of digits -/

theorem hexDigits_one (h : number < 16) : hexDigits 1 number = [number.digitChar] := by
  unfold hexDigits
  rw [Nat.toDigits_of_lt_base h]
  rfl

theorem hexDigits_succ (hwidth : 0 < width) (number : Nat) :
    hexDigits (width + 1) number =
      hexDigits width (number / 16) ++ [(number % 16).digitChar] := by
  unfold hexDigits
  by_cases hsmall : number < 16
  · rw [Nat.toDigits_of_lt_base hsmall, Nat.div_eq_of_lt hsmall, Nat.mod_eq_of_lt hsmall,
      Nat.toDigits_zero]
    dsimp only [List.length_singleton]
    rw [Nat.add_sub_cancel, ← List.replicate_succ', Nat.sub_add_cancel hwidth]
  · rw [Nat.toDigits_eq_if (by decide), if_neg hsmall]
    dsimp only
    rw [List.length_append, List.length_singleton, Nat.add_sub_add_right, List.append_assoc]

theorem length_hexDigits {width number : Nat} (hwidth : 0 < width) (h : number < 16 ^ width) :
    (hexDigits width number).length = width := by
  have hlength : (Nat.toDigits 16 number).length ≤ width :=
    (Nat.length_toDigits_le_iff (by decide) hwidth).2 h
  unfold hexDigits
  rw [List.length_append, List.length_replicate]
  omega

theorem readHex?_concat (digits : List Char) (c : Char) : readHex? (digits ++ [c]) =
    (readHex? digits).bind fun total ↦ (hexValue? c).map (total * 16 + ·) := by
  unfold readHex?
  rw [List.foldl_append]
  rfl

/-- The digits of a number are read as this number. -/
theorem readHex?_hexDigits (hwidth : 0 < width) (h : number < 16 ^ width) :
    readHex? (hexDigits width number) = some number := by
  induction width, hwidth using Nat.le_induction generalizing number with
  | base =>
    rw [hexDigits_one h]
    change (hexValue? number.digitChar).map (0 * 16 + ·) = _
    rw [hexValue?_digitChar h, Option.map_some, Nat.zero_mul, Nat.zero_add]
  | succ width hwidth ih =>
    rw [Nat.pow_succ] at h
    rw [hexDigits_succ hwidth, readHex?_concat, ih (by omega), Option.bind_some,
      hexValue?_digitChar (Nat.mod_lt _ (by decide)), Option.map_some, Nat.div_add_mod']

/-- Digits that are read are those of the number, but for their case. -/
theorem hexDigits_of_readHex? (hne : digits ≠ []) (h : readHex? digits = some number) :
    number < 16 ^ digits.length ∧
      hexDigits digits.length number = digits.map Char.toLower := by
  induction digits using List.reverseRecOn generalizing number with
  | nil => exact absurd rfl hne
  | append_singleton front c ih =>
    rw [readHex?_concat] at h
    obtain ⟨total, htotal, h⟩ := Option.bind_eq_some_iff.1 h
    obtain ⟨value, hvalue, rfl⟩ := Option.map_eq_some_iff.1 h
    obtain ⟨hsmall, hchar⟩ := digitChar_of_hexValue? hvalue
    rw [List.map_append, List.map_singleton, List.length_append, List.length_singleton, ← hchar]
    rcases List.eq_nil_or_concat front with rfl | ⟨before, last, rfl⟩
    · cases htotal
      rw [Nat.zero_mul, Nat.zero_add]
      exact ⟨hsmall, hexDigits_one hsmall⟩
    · obtain ⟨hrange, hdigits⟩ := ih (by simp) htotal
      have hfront : (total * 16 + value) / 16 = total := by omega
      have hlast : (total * 16 + value) % 16 = value := by omega
      rw [hexDigits_succ (by simp), hfront, hlast, hdigits, Nat.pow_succ]
      exact ⟨by omega, rfl⟩

end Text

/-! ## Identifiers -/

namespace ObjectId

theorem ofText?_text (id : ObjectId) : ofText? id.text = some id := by
  have hrange : id.value.val < 16 ^ 24 := id.value.isLt
  have hvalue : lowBits 96 id.value.val = id.value := Fin.ext (Nat.mod_eq_of_lt id.value.isLt)
  unfold ofText? text
  rw [String.toList_ofList, if_pos (Text.length_hexDigits (by decide) hrange),
    Text.readHex?_hexDigits (by decide) hrange, Option.map_some, hvalue]

/-- A text that is read is the text of the identifier, but for the case of its letters. -/
theorem text_of_ofText? {text : String} {id : ObjectId} (h : ofText? text = some id) :
    id.text = String.ofList (text.toList.map Char.toLower) := by
  unfold ofText? at h
  split at h
  · next hlength =>
    obtain ⟨number, hnumber, rfl⟩ := Option.map_eq_some_iff.1 h
    have hne : text.toList ≠ [] := List.ne_nil_of_length_pos (by omega)
    obtain ⟨hrange, hdigits⟩ := Text.hexDigits_of_readHex? hne hnumber
    rw [hlength] at hrange hdigits
    have hvalue : (lowBits 96 number).val = number := Nat.mod_eq_of_lt hrange
    unfold ObjectId.text
    rw [hvalue, hdigits]
  · cases h

end ObjectId

namespace Guid

/-- Hyphens between the groups are passed over. -/
theorem ofGroups?_groups {a b c d e : List Char} (ha : a.length = 8) (hb : b.length = 4)
    (hc : c.length = 4) (hd : d.length = 4) (he : e.length = 12) :
    ofGroups? (a ++ '-' :: b ++ '-' :: c ++ '-' :: d ++ '-' :: e) =
      ofDigits? (a ++ b ++ c ++ d ++ e) := by
  unfold ofGroups?
  simp [List.take_append, List.drop_append, ha, hb, hc, hd, he, List.take_of_length_le,
    List.drop_of_length_le]

theorem ofText?_text (id : Guid) : ofText? id.text = some id := by
  have hrange : id.value.val < 16 ^ 32 := id.value.isLt
  have hlength := Text.length_hexDigits (by decide) hrange
  have hread := Text.readHex?_hexDigits (by decide) hrange
  have hvalue : lowBits 128 id.value.val = id.value := Fin.ext (Nat.mod_eq_of_lt id.value.isLt)
  unfold ofText? text
  generalize Text.hexDigits 32 id.value.val = digits at hlength hread
  have hgroup (start count : Nat) :
      (digits.drop start).take count ++ digits.drop (start + count) = digits.drop start := by
    rw [← List.drop_drop, List.take_append_drop]
  have hgroups : digits.take 8 ++ (digits.drop 8).take 4 ++ (digits.drop 12).take 4 ++
      (digits.drop 16).take 4 ++ digits.drop 20 = digits := by
    rw [List.append_assoc, hgroup 16 4, List.append_assoc, hgroup 12 4, List.append_assoc,
      hgroup 8 4, List.take_append_drop]
  dsimp only
  rw [String.toList_ofList, if_neg (by simp [hlength]), if_pos (by simp [hlength]),
    ofGroups?_groups (by simp [hlength]) (by simp [hlength]) (by simp [hlength])
      (by simp [hlength]) (by simp [hlength]), hgroups, ofDigits?, if_pos hlength, hread,
    Option.map_some, hvalue]

end Guid

end DocMapping
