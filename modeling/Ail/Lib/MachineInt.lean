import Mathlib.Tactic.Linarith

/-!
# Overflow of 64-bit signed arithmetic

The exact result of an operation on two machine integers may lie outside
their range. `checked` gives it only if it fits, `saturated` the nearest
number that does; a machine computes the wrapped result and has to notice
from the operands and the result that it is not the exact one.

The lemmas here say that the tests compilers emit notice exactly that:
for sums and differences the result is on the wrong side of the left
operand, for products it does not divide back.
-/

namespace Ail.Lib

variable (n : Int)

def Fits : Prop := -2 ^ 63 ≤ n ∧ n < 2 ^ 63

instance (n : Int) : Decidable (Fits n) := inferInstanceAs (Decidable (_ ∧ _))

/-- The machine integer of a number that fits. -/
def checked : Option Int64 := if Fits n then some (Int64.ofInt n) else none

/-- The machine integer nearest to a number. -/
def saturated : Int64 :=
  if n < -2 ^ 63 then Int64.minValue else if 2 ^ 63 ≤ n then Int64.maxValue else Int64.ofInt n

/-! ## Wrapping -/

variable (a : Int64)

theorem fits_toInt : Fits a.toInt := ⟨a.le_toInt, a.toInt_lt⟩

/-- Wrapping moves a number by a multiple of the size, into the range. -/
theorem bmod_spec : Fits (n.bmod (2 ^ 64)) ∧ ∃ k, n.bmod (2 ^ 64) = n + k * 2 ^ 64 := by
  have hmod := Int.bmod_add_bdiv n (2 ^ 64)
  have hle := @Int.le_bmod n (2 ^ 64) (by decide)
  have hlt := @Int.bmod_lt n (2 ^ 64) (by decide)
  refine ⟨⟨by simpa using hle, by simpa using hlt⟩, -n.bdiv (2 ^ 64), ?_⟩
  rw [Nat.cast_pow, Nat.cast_ofNat] at hmod
  linarith

theorem bmod_of_fits {n : Int} (hfits : Fits n) : n.bmod (2 ^ 64) = n := by
  obtain ⟨⟨hle, hlt⟩, k, hk⟩ := bmod_spec n
  obtain ⟨hle', hlt'⟩ := hfits
  omega

/-- What the wrapped result is, when the exact one fits. -/
theorem ofInt_eq_of_toInt {n : Int} {a : Int64} (hwraps : a.toInt = n.bmod (2 ^ 64)) :
    Int64.ofInt n = a :=
  Int64.toInt_inj.1 (by rw [Int64.toInt_ofInt, hwraps]; rfl)

theorem checked_eq {n : Int} {a : Int64} (hwraps : a.toInt = n.bmod (2 ^ 64)) :
    checked n = if Fits n then some a else none := by
  rw [checked, ofInt_eq_of_toInt hwraps]

/-- Saturation only ever raises a number to the least one there is. -/
theorem toInt_saturated_le : saturated n = Int64.minValue ∨ (saturated n).toInt ≤ n := by
  unfold saturated
  split_ifs with hlow hhigh
  · exact .inl rfl
  · exact .inr (by rw [Int64.toInt_maxValue]; omega)
  · exact .inr (Int64.toInt_ofInt_of_le (by omega) (by omega)).le

/-! ## Sums and differences -/

variable (b : Int64)

/-- A sum is out of range if and only if the wrapped one is on the wrong side. -/
theorem add_out_iff :
    (2 ^ 63 ≤ a.toInt + b.toInt ↔ 0 < b ∧ a + b < a) ∧
      (a.toInt + b.toInt < -2 ^ 63 ↔ b < 0 ∧ a < a + b) := by
  obtain ⟨⟨hle, hlt⟩, k, hk⟩ := bmod_spec (a.toInt + b.toInt)
  have ha := fits_toInt a
  have hb := fits_toInt b
  simp only [Int64.lt_iff_toInt_lt, Int64.toInt_add, Int64.toInt_zero, Fits] at *
  omega

theorem sub_out_iff :
    (2 ^ 63 ≤ a.toInt - b.toInt ↔ b < 0 ∧ a - b < a) ∧
      (a.toInt - b.toInt < -2 ^ 63 ↔ 0 < b ∧ a < a - b) := by
  obtain ⟨⟨hle, hlt⟩, k, hk⟩ := bmod_spec (a.toInt - b.toInt)
  have ha := fits_toInt a
  have hb := fits_toInt b
  simp only [Int64.lt_iff_toInt_lt, Int64.toInt_sub, Int64.toInt_zero, Fits] at *
  omega

theorem fits_iff : Fits n ↔ ¬ (2 ^ 63 ≤ n ∨ n < -2 ^ 63) := by
  unfold Fits
  omega

theorem checked_add :
    checked (a.toInt + b.toInt) =
      if (0 < b ∧ a + b < a) ∨ (b < 0 ∧ a < a + b) then none else some (a + b) := by
  simp only [checked_eq (Int64.toInt_add a b), ← (add_out_iff a b).1,
    ← (add_out_iff a b).2, fits_iff, ite_not]

theorem checked_sub :
    checked (a.toInt - b.toInt) =
      if (0 < b ∧ a < a - b) ∨ (b < 0 ∧ a - b < a) then none else some (a - b) := by
  simp only [checked_eq (Int64.toInt_sub a b), ← (sub_out_iff a b).1, ← (sub_out_iff a b).2,
    fits_iff, ite_not, or_comm]

theorem saturated_add :
    saturated (a.toInt + b.toInt) =
      if 0 < b ∧ a + b < a then Int64.maxValue
      else if b < 0 ∧ a < a + b then Int64.minValue else a + b := by
  simp only [saturated, ofInt_eq_of_toInt (Int64.toInt_add a b), ← (add_out_iff a b).1,
    ← (add_out_iff a b).2]
  split_ifs <;> first | rfl | omega

theorem saturated_sub :
    saturated (a.toInt - b.toInt) =
      if 0 < b ∧ a < a - b then Int64.minValue
      else if b < 0 ∧ a - b < a then Int64.maxValue else a - b := by
  simp [saturated, ← (sub_out_iff a b).1, ← (sub_out_iff a b).2]

/-! ## Negation -/

theorem eq_minValue_iff : a = Int64.minValue ↔ a.toInt = -2 ^ 63 := by
  rw [← Int64.toInt_inj, Int64.toInt_minValue]

theorem toInt_zero_sub : (0 - a).toInt = (-a.toInt).bmod (2 ^ 64) := by
  rw [Int64.toInt_sub, Int64.toInt_zero, Int.zero_sub]

theorem fits_neg_iff : Fits (-a.toInt) ↔ a ≠ Int64.minValue := by
  obtain ⟨hle, hlt⟩ := fits_toInt a
  rw [ne_eq, eq_minValue_iff, Fits]
  omega

theorem checked_neg : checked (-a.toInt) = if a = Int64.minValue then none else some (0 - a) := by
  simp [checked_eq (toInt_zero_sub a), fits_neg_iff]

theorem checked_abs :
    checked |a.toInt| =
      if a = Int64.minValue then none else some (if a < 0 then 0 - a else a) := by
  simp only [Int64.lt_iff_toInt_lt, Int64.toInt_zero]
  split_ifs with hmin hneg
  · rw [hmin]
    decide
  · rw [abs_of_neg hneg, checked_neg, if_neg hmin]
  · rw [abs_of_nonneg (by omega), checked, if_pos (fits_toInt a), Int64.ofInt_toInt]

theorem saturated_neg :
    saturated (-a.toInt) = if a = Int64.minValue then Int64.maxValue else 0 - a := by
  obtain ⟨hle, hlt⟩ := fits_toInt a
  simp only [saturated, ofInt_eq_of_toInt (toInt_zero_sub a), eq_minValue_iff]
  split_ifs <;> first | rfl | omega

/-! ## Products and quotients -/

theorem toInt_ne_zero {b : Int64} (hb : b ≠ 0) : b.toInt ≠ 0 := by
  exact fun heq => hb (Int64.toInt_inj.1 heq)

theorem toInt_neg_one : (-1 : Int64).toInt = -1 := by decide

/-- A quotient overflows in one case only. -/
theorem fits_tdiv_iff : Fits (a.toInt.tdiv b.toInt) ↔ ¬ (a = Int64.minValue ∧ b = -1) := by
  by_cases hb : b = -1
  · rw [hb, toInt_neg_one, Int.tdiv_neg, Int.tdiv_one, fits_neg_iff]
    simp
  · rw [← Int64.toInt_div_of_ne_right a b hb]
    exact iff_of_true (fits_toInt _) fun hboth => hb hboth.2

/-- One quotient is out of range: the least number by -1. -/
theorem checked_tdiv :
    checked (a.toInt.tdiv b.toInt) =
      if a = Int64.minValue ∧ b = -1 then none else some (a / b) := by
  simp only [checked_eq (Int64.toInt_div a b), fits_tdiv_iff, ite_not]

/-- A wrapped product divides back to the left operand only if it did not
wrap: the remainder would have to be a multiple of the size. -/
theorem fits_mul_of_tdiv_eq {a b : Int64} (hb : b ≠ 0)
    (hback : (a * b).toInt.tdiv b.toInt = a.toInt) : Fits (a.toInt * b.toInt) := by
  obtain ⟨hfits, k, hk⟩ := bmod_spec (a.toInt * b.toInt)
  have hrem := Int.mul_tdiv_add_tmod (a * b).toInt b.toInt
  have hsmall : ((a * b).toInt.tmod b.toInt).natAbs < b.toInt.natAbs := by
    rw [Int.natAbs_tmod]
    exact Nat.mod_lt _ (Int.natAbs_pos.2 (toInt_ne_zero hb))
  obtain ⟨hle, hlt⟩ := fits_toInt b
  rw [hback, Int.mul_comm] at hrem
  rw [Int64.toInt_mul] at hrem hsmall
  have hk0 : k = 0 := by omega
  rw [hk, hk0] at hfits
  simpa using hfits

theorem fits_mul_iff {a b : Int64} (hb : b ≠ 0) :
    Fits (a.toInt * b.toInt) ↔
      ¬ ((a * b = Int64.minValue ∧ b = -1) ∨ (a * b) / b ≠ a) := by
  rw [not_or, not_ne_iff]
  constructor
  · intro hfits
    have hexact : (a * b).toInt = a.toInt * b.toInt := by
      rw [Int64.toInt_mul, bmod_of_fits hfits]
    have hquot : (a * b).toInt.tdiv b.toInt = a.toInt := by
      rw [hexact, Int.mul_tdiv_cancel _ (toInt_ne_zero hb)]
    have hnot : ¬ (a * b = Int64.minValue ∧ b = -1) := by
      rw [← fits_tdiv_iff, hquot]
      exact fits_toInt a
    refine ⟨hnot, Int64.toInt_inj.1 ?_⟩
    rw [Int64.toInt_div, hquot, bmod_of_fits (fits_toInt a)]
  · rintro ⟨hnot, hback⟩
    refine fits_mul_of_tdiv_eq hb ?_
    rw [← bmod_of_fits ((fits_tdiv_iff _ _).2 hnot), ← Int64.toInt_div, hback]

theorem checked_mul :
    checked (a.toInt * b.toInt) =
      if b = 0 then some (a * b)
      else if a * b = Int64.minValue ∧ b = -1 then none
      else if (a * b) / b ≠ a then none else some (a * b) := by
  rw [checked_eq (Int64.toInt_mul a b)]
  by_cases hb : b = 0
  · rw [if_pos hb, if_pos]
    rw [hb, Int64.toInt_zero, Int.mul_zero]
    decide
  · simp only [fits_mul_iff hb]
    split_ifs <;> first | rfl | tauto

theorem saturated_eq {n : Int} {a : Int64} (hwraps : a.toInt = n.bmod (2 ^ 64)) :
    saturated n =
      if Fits n then a else if n < 0 then Int64.minValue else Int64.maxValue := by
  rw [saturated, ofInt_eq_of_toInt hwraps]
  by_cases hfits : Fits n
  · rw [if_pos hfits, if_neg (by have := hfits.1; omega), if_neg (by have := hfits.2; omega)]
  · rw [if_neg hfits]
    rw [fits_iff] at hfits
    split_ifs <;> first | rfl | omega

/-- Where a product does not fit, the signs of the operands say on which
side it lies. -/
theorem saturated_mul :
    saturated (a.toInt * b.toInt) =
      let clamp := if (a < 0) ↔ (b < 0) then Int64.maxValue else Int64.minValue
      if b = 0 then a * b
      else if a * b = Int64.minValue ∧ b = -1 then clamp
      else if (a * b) / b ≠ a then clamp else a * b := by
  have hsign : ¬ Fits (a.toInt * b.toInt) →
      (a.toInt * b.toInt < 0 ↔ ¬ ((a < 0) ↔ (b < 0))) := by
    intro hnot
    have hne : a.toInt * b.toInt ≠ 0 := fun heq => hnot (by rw [heq]; decide)
    obtain ⟨ha, hb⟩ := Int.mul_ne_zero_iff.1 hne
    rw [mul_neg_iff, Int64.lt_iff_toInt_lt, Int64.lt_iff_toInt_lt, Int64.toInt_zero]
    omega
  rw [saturated_eq (Int64.toInt_mul a b)]
  by_cases hb : b = 0
  · rw [if_pos hb, if_pos]
    rw [hb, Int64.toInt_zero, Int.mul_zero]
    decide
  · rw [if_neg hb]
    by_cases hfits : Fits (a.toInt * b.toInt)
    · obtain ⟨hmin, hback⟩ := not_or.1 ((fits_mul_iff hb).1 hfits)
      rw [if_pos hfits, if_neg hmin, if_neg hback]
    · have hover := not_not.1 (mt (fits_mul_iff hb).2 hfits)
      split_ifs <;> first | rfl | tauto

end Ail.Lib
