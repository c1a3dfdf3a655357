import Mathlib.Data.Nat.Basic
import Mathlib.Tactic.Ring

/-!
# Orders by Parts and by Keys

An order that goes part by part is the order of one number, if the parts are digits of that number.
A key that never turns an order around has this order, except that it may confuse what the order
tells apart.
-/

namespace DocMapping

/-! ## Keys -/

section

variable {α β : Type} [Ord α] [LT α] [LE α] [Std.LawfulOrderOrd α] [Std.LawfulOrderLT α]
  [Std.LawfulEqOrd α] [Ord β] [LT β] [LE β] [Std.LawfulOrderOrd β] [Std.LawfulOrderLT β]
  [Std.LawfulEqOrd β]

/-- Keys that rise with what they are keys of. -/
theorem compare_keys {a b : α} {x y : β} (hlt : a < b → x < y) (hgt : b < a → y < x)
    (heq : a = b → x = y) : compare x y = compare a b := by
  cases h : compare a b with
  | lt => exact Std.compare_eq_lt.2 (hlt (Std.compare_eq_lt.1 h))
  | gt => exact Std.compare_eq_gt.2 (hgt (Std.compare_eq_gt.1 h))
  | eq => exact Std.compare_eq_iff_eq.2 (heq (Std.compare_eq_iff_eq.1 h))

end

/-- Keys that do not fall where what they are keys of rises: they have its order if they tell it
apart. -/
theorem order_keys {natural keys : Ordering} (hlt : natural = .lt → keys ≠ .gt)
    (hgt : natural = .gt → keys ≠ .lt) (heq : natural = .eq → keys = .eq) :
    keys = natural ↔ (keys = .eq → natural = .eq) := by
  cases natural with
  | lt => cases keys <;> simp_all
  | gt => cases keys <;> simp_all
  | eq => simp [heq rfl]

/-! ## Parts -/

theorem compare_natCast (a b : Nat) : compare (a : Int) b = compare a b :=
  compare_keys (fun h ↦ by omega) (fun h ↦ by omega) fun h ↦ by omega

/-- The first part counts in whole multiples of a bound on the second. -/
theorem compare_parts {a b : Int} {c d n : Nat} (hc : c < n) (hd : d < n) :
    (compare a b).then (compare c d) = compare (a * n + c) (b * n + d) := by
  have hstep {x y : Int} {u v : Nat} (hu : u < n) (hxy : x < y) : x * n + u < y * n + v := by
    have hmul : (x + 1) * (n : Int) ≤ y * n :=
      Int.mul_le_mul_of_nonneg_right (by omega) (by omega)
    have hsplit : (x + 1) * (n : Int) = x * n + n := by ring
    omega
  rcases lt_trichotomy a b with h | rfl | h
  · rw [Std.compare_eq_lt.2 h]
    exact (Std.compare_eq_lt.2 (hstep hc h)).symm
  · rw [Std.compare_self, Ordering.eq_then, ← compare_natCast c d]
    exact compare_keys (fun h ↦ by omega) (fun h ↦ by omega) fun h ↦ by omega
  · rw [Std.compare_eq_gt.2 h]
    exact (Std.compare_eq_gt.2 (hstep hd h)).symm

theorem compare_digits {a b c d n : Nat} (hc : c < n) (hd : d < n) :
    (compare a b).then (compare c d) = compare (a * n + c) (b * n + d) := by
  rw [← compare_natCast a b, compare_parts hc hd, ← compare_natCast]
  push_cast
  rfl

end DocMapping
