import LineCalc.Decimal.Basic
import LineCalc.Proofs.WholeDouble

/-!
# Rounding keeps the order of numbers

A decimal is an exact number, `Decimal.value`, and reads as the double next to it. Of two
decimals the greater one never reads as the smaller double (`units_le_units`), and a double,
taken as an exact number, reads as itself. So all the decimals that read as one double lie
together, and whatever lies between two of them is one of them.

Rounding is done on the last binary place that is left, and that place is the higher the
greater the number is. Two numbers that are rounded on the same place are compared there. Of
two numbers that are rounded on different places, the one on the lower place is still no
greater, when rounded up, than the least number on the higher place.
-/

namespace LineCalc

/-! ## Quotients -/

/-- A quotient is rounded up from one half on, and from just one half to an even number. -/
theorem roundDiv_eq (num den : Nat) :
    roundDiv num den = num / den + if den < 2 * (num % den) ∨
      den = 2 * (num % den) ∧ num / den % 2 = 1 then 1 else 0 := by
  unfold roundDiv
  dsimp only
  split_ifs <;> omega

theorem div_le_div_of_mul_le {a b c d : Nat} (hb : 0 < b) (hd : 0 < d) (h : a * d ≤ c * b) :
    a / b ≤ c / d := by
  rw [Nat.le_div_iff_mul_le hd]
  refine Nat.le_of_mul_le_mul_right ?_ hb
  calc a / b * d * b = a / b * b * d := Nat.mul_right_comm ..
    _ ≤ a * d := Nat.mul_le_mul_right d (Nat.div_mul_le_self a b)
    _ ≤ c * b := h

theorem roundDiv_le_roundDiv {a b c d : Nat} (hb : 0 < b) (hd : 0 < d) (h : a * d ≤ c * b) :
    roundDiv a b ≤ roundDiv c d := by
  rcases (div_le_div_of_mul_le hb hd h).lt_or_eq with hlt | heq
  · calc roundDiv a b ≤ a / b + 1 := roundDiv_le_succ a b
      _ ≤ c / d := hlt
      _ ≤ roundDiv c d := div_le_roundDiv c d
  · -- of equal whole parts, what is left over decides
    have hrem : a % b * d ≤ c % d * b := by
      have ha : a * d = a / b * (b * d) + a % b * d := by
        rw [← Nat.mul_assoc, ← Nat.add_mul, Nat.mul_comm (a / b), Nat.div_add_mod]
      have hc : c * b = a / b * (b * d) + c % d * b := by
        rw [heq, Nat.mul_comm b d, ← Nat.mul_assoc, ← Nat.add_mul, Nat.mul_comm (c / d),
          Nat.div_add_mod]
      omega
    have hhalf : b ≤ 2 * (a % b) → d ≤ 2 * (c % d) := fun hup => by
      refine Nat.le_of_mul_le_mul_right ?_ hb
      calc d * b = b * d := Nat.mul_comm ..
        _ ≤ 2 * (a % b) * d := Nat.mul_le_mul_right d hup
        _ ≤ 2 * (c % d) * b := by rw [Nat.mul_assoc, Nat.mul_assoc]; omega
    have hmore : b < 2 * (a % b) → d < 2 * (c % d) := fun hup => by
      refine Nat.lt_of_mul_lt_mul_right (a := b) ?_
      calc d * b = b * d := Nat.mul_comm ..
        _ < 2 * (a % b) * d := Nat.mul_lt_mul_of_pos_right hup hd
        _ ≤ 2 * (c % d) * b := by rw [Nat.mul_assoc, Nat.mul_assoc]; omega
    rw [roundDiv_eq, roundDiv_eq, heq]
    by_cases hup : b < 2 * (a % b) ∨ b = 2 * (a % b) ∧ c / d % 2 = 1
    · have hup' : d < 2 * (c % d) ∨ d = 2 * (c % d) ∧ c / d % 2 = 1 := by omega
      rw [if_pos hup, if_pos hup']
    · rw [if_neg hup]
      omega

/-! ## Units -/

namespace Double

theorem lastPlace_mono {m n : Nat} (h : m ≤ n) : lastPlace m ≤ lastPlace n := by
  rw [lastPlace, lastPlace, Nat.log2_eq_log_two, Nat.log2_eq_log_two]
  exact Nat.sub_le_sub_right (Nat.log_mono_right h) 52

/-- A number that is rounded above the lowest place has all of its 53 digits. -/
theorem pow_le_of_lastPlace_pos {n : Nat} (h : 0 < lastPlace n) : 2 ^ (52 + lastPlace n) ≤ n := by
  unfold lastPlace at h ⊢
  have hn : n ≠ 0 := by
    rintro rfl
    simp at h
  rw [Nat.add_sub_cancel' (by omega)]
  exact Nat.log2_self_le hn

theorem roundUnits_le_roundUnits {a b c d : Nat} (hb : 0 < b) (hd : 0 < d) (h : a * d ≤ c * b) :
    roundUnits a b ≤ roundUnits c d := by
  have hquot := div_le_div_of_mul_le hb hd h
  rcases (lastPlace_mono hquot).lt_or_eq with hlt | heq
  · -- the first comes to no more than the least number on the place of the second
    have hfirst : roundUnits a b ≤ 2 ^ (53 + lastPlace (a / b)) := by
      rw [roundUnits, Nat.shiftLeft_eq, Nat.pow_add, ← Nat.one_shiftLeft 53]
      exact Nat.mul_le_mul_right _ (roundUnits_significand_le a b)
    have hsecond : 2 ^ (52 + lastPlace (c / d)) ≤ roundUnits c d := by
      have hfull := pow_le_of_lastPlace_pos (Nat.zero_lt_of_lt hlt)
      rw [roundUnits, Nat.shiftLeft_eq, Nat.pow_add]
      refine Nat.mul_le_mul_right _ (Nat.le_trans ?_ (div_le_roundDiv ..))
      rw [Nat.shiftLeft_eq, ← Nat.div_div_eq_div_mul, Nat.le_div_iff_mul_le (Nat.two_pow_pos _),
        ← Nat.pow_add]
      exact hfull
    calc roundUnits a b ≤ 2 ^ (53 + lastPlace (a / b)) := hfirst
      _ ≤ 2 ^ (52 + lastPlace (c / d)) := Nat.pow_le_pow_right Nat.two_pos (by omega)
      _ ≤ roundUnits c d := hsecond
  · have hpos : 0 < 2 ^ lastPlace (c / d) := Nat.two_pow_pos _
    rw [roundUnits, roundUnits, heq]
    simp only [Nat.shiftLeft_eq]
    refine Nat.mul_le_mul_right _ (roundDiv_le_roundDiv (Nat.mul_pos hb hpos)
      (Nat.mul_pos hd hpos) ?_)
    rw [← Nat.mul_assoc, ← Nat.mul_assoc]
    exact Nat.mul_le_mul_right _ h

/-- So many units as an exact number. -/
def exact (n : Nat) : ℚ := n / unitsPerOne

end Double

/-! ## Decimals -/

namespace Decimal

/-- The exact number that a decimal is. -/
def value (d : Decimal) : ℚ := d.digits * 10 ^ d.exponent

theorem tenPow_eq (n : Nat) : tenPow n = 10 ^ n := rfl

theorem den_pos (d : Decimal) : 0 < d.den := Nat.pow_pos (by decide)

/-- Of the two powers that a decimal is written with, one is one. -/
theorem zpow_mul_pow_toNat (e : Int) : (10 : ℚ) ^ e * 10 ^ (-e).toNat = 10 ^ e.toNat := by
  rw [← zpow_natCast, ← zpow_natCast, ← zpow_add₀ (by norm_num)]
  congr 1
  omega

theorem num_eq (d : Decimal) : (d.num : ℚ) = d.value * d.den := by
  rw [num, den, value, tenPow_eq, tenPow_eq]
  push_cast
  rw [mul_assoc, zpow_mul_pow_toNat]

/-- A whole number is so many times the units in one. -/
theorem value_whole (m : Nat) :
    (⟨m, 0⟩ : Decimal).value = Double.exact (m * Double.unitsPerOne) := by
  have hone : (Double.unitsPerOne : ℚ) ≠ 0 := by exact_mod_cast Double.unitsPerOne_pos.ne'
  rw [value, Double.exact]
  push_cast
  rw [mul_div_cancel_right₀ _ hone]
  simp

variable {d d' : Decimal} {n : Nat}

/-- **The greater of two decimals does not read as less.** -/
theorem units_le_units (h : d.value ≤ d'.value) : d.units ≤ d'.units := by
  refine Double.roundUnits_le_roundUnits d.den_pos d'.den_pos ?_
  have hcross : d.num * d'.den ≤ d'.num * d.den := by
    have hpos : (0 : ℚ) ≤ d.den * d'.den := by positivity
    rw [← Nat.cast_le (α := ℚ)]
    push_cast
    rw [num_eq, num_eq]
    nlinarith
  rw [Nat.shiftLeft_eq, Nat.shiftLeft_eq, Nat.mul_right_comm, Nat.mul_right_comm d'.num]
  exact Nat.mul_le_mul_right _ hcross

theorem units_eq_units (h : d.value = d'.value) : d.units = d'.units :=
  Nat.le_antisymm (units_le_units h.le) (units_le_units h.ge)

theorem roundUnits_one (hn : Double.Representable n) : Double.roundUnits n 1 = n := by
  simpa using Double.roundUnits_mul hn Nat.one_pos

theorem unitsPerOne_eq : (Double.unitsPerOne : ℚ) = 2 ^ Double.onePlace := by
  rw [Double.unitsPerOne, Nat.one_shiftLeft]
  push_cast
  rfl

/-- A decimal reads as a double or less if it is no greater. -/
theorem units_le_of_value_le (hn : Double.Representable n) (h : d.value ≤ Double.exact n) :
    d.units ≤ n := by
  rw [← roundUnits_one hn]
  refine Double.roundUnits_le_roundUnits d.den_pos Nat.one_pos ?_
  rw [Double.exact, le_div_iff₀ (by exact_mod_cast Double.unitsPerOne_pos), unitsPerOne_eq] at h
  have hden : (0 : ℚ) ≤ d.den := Nat.cast_nonneg _
  rw [Nat.mul_one, Nat.shiftLeft_eq, ← Nat.cast_le (α := ℚ)]
  push_cast
  rw [num_eq]
  nlinarith

theorem le_units_of_le_value (hn : Double.Representable n) (h : Double.exact n ≤ d.value) :
    n ≤ d.units := by
  rw [← roundUnits_one hn]
  refine Double.roundUnits_le_roundUnits Nat.one_pos d.den_pos ?_
  rw [Double.exact, div_le_iff₀ (by exact_mod_cast Double.unitsPerOne_pos), unitsPerOne_eq] at h
  have hden : (0 : ℚ) ≤ d.den := Nat.cast_nonneg _
  rw [Nat.mul_one, Nat.shiftLeft_eq, ← Nat.cast_le (α := ℚ)]
  push_cast
  rw [num_eq]
  nlinarith

/-- A decimal with the value of a double is rounded to that double. -/
theorem units_eq_of_value_eq (hn : Double.Representable n) (h : d.value = Double.exact n) :
    d.units = n :=
  Nat.le_antisymm (units_le_of_value_le hn h.le) (le_units_of_le_value hn h.ge)

end Decimal

end LineCalc
