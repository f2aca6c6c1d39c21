import Mathlib
import LineCalc.Double.Bits

/-!
# Doubles and their bits

A double has one pattern of bits, and apart from what is not a number, one pattern of bits has
one double. So to say of a double other than that one that it comes back is to say that it comes
back bit for bit.

All patterns are put together from a sign, an exponent and a fraction (`exists_assemble`), and
reading and writing bits are described by these three.
-/

namespace LineCalc.Double

/-- A pattern of bits: a sign, eleven bits of exponent, 52 bits of fraction. -/
def assemble (negative : Bool) (field fraction : Nat) : UInt64 :=
  UInt64.ofNat (signBit negative + field * 2 ^ 52 + fraction)

variable {negative : Bool} {field fraction : Nat}

theorem signBit_eq (negative : Bool) : signBit negative = negative.toNat * 2 ^ 63 := by
  cases negative <;> rfl

theorem toNat_assemble (hfield : field < 2048) (hfraction : fraction < 2 ^ 52) :
    (assemble negative field fraction).toNat =
      negative.toNat * 2 ^ 63 + field * 2 ^ 52 + fraction := by
  have hsign := negative.toNat_le
  rw [assemble, signBit_eq]
  exact UInt64.toNat_ofNat_of_lt' (by rw [UInt64.size]; omega)

/-- Each pattern of 64 bits is put together from a sign and two fields. -/
theorem exists_assemble (b : UInt64) : ∃ negative field fraction, field < 2048 ∧
    fraction < 2 ^ 52 ∧ b = assemble negative field fraction := by
  have hb := b.toNat_lt
  refine ⟨decide (b.toNat / 2 ^ 63 = 1), b.toNat / 2 ^ 52 % 2048, b.toNat % 2 ^ 52,
    Nat.mod_lt _ (by decide), Nat.mod_lt _ (by decide), ?_⟩
  rw [← UInt64.toNat_inj, toNat_assemble (Nat.mod_lt _ (by decide)) (Nat.mod_lt _ (by decide))]
  by_cases hsign : b.toNat / 2 ^ 63 = 1
  · simp only [hsign, decide_true, Bool.toNat_true]
    omega
  · simp only [hsign, decide_false, Bool.toNat_false]
    omega

/-- The units of a finite double by its exponent and its fraction. -/
def unitsOf (field fraction : Nat) : Nat :=
  if field = 0 then fraction else (2 ^ 52 + fraction) * 2 ^ (field - 1)

theorem finite_congr {a b : Bool} {m n : Nat} {hm : Representable m} (hsign : a = b)
    (hunits : m = n) : ∃ hn, finite a m hm = finite b n hn := by
  subst hsign hunits
  exact ⟨hm, rfl⟩

/-- The three parts, taken out of a pattern again. -/
theorem parts_assemble (negative : Bool) (hfield : field < 2048) (hfraction : fraction < 2 ^ 52) :
    (assemble negative field fraction).toNat / (1 <<< 63) = negative.toNat ∧
      (assemble negative field fraction).toNat / (1 <<< 52) % 2048 = field ∧
      (assemble negative field fraction).toNat % (1 <<< 52) = fraction := by
  have hsign := negative.toNat_le
  rw [toNat_assemble hfield hfraction, Nat.one_shiftLeft, Nat.one_shiftLeft]
  omega

theorem ofBits_assemble (negative : Bool) (hfield : field < 2047) (hfraction : fraction < 2 ^ 52) :
    ∃ h, ofBits (assemble negative field fraction) =
      .finite negative (unitsOf field fraction) h := by
  obtain ⟨h1, h2, h3⟩ := parts_assemble negative (by omega : field < 2048) hfraction
  have hsign : decide (negative.toNat = 1) = negative := by cases negative <;> rfl
  unfold ofBits unitsOf
  dsimp only
  rw [dif_neg (by rw [h2]; omega)]
  by_cases hzero : field = 0
  · rw [if_pos (h2.trans hzero), if_pos hzero]
    exact finite_congr (by rw [h1, hsign]) (by rw [h3, Nat.shiftLeft_zero])
  · rw [if_neg hzero, if_neg (h2.trans_ne hzero)]
    exact finite_congr (by rw [h1, hsign])
      (by rw [h2, h3, Nat.one_shiftLeft, Nat.shiftLeft_eq])

theorem ofBits_assemble_full (hfraction : fraction < 2 ^ 52) :
    ofBits (assemble negative 2047 fraction) =
      if fraction = 0 then .infinity negative else .nan := by
  obtain ⟨h1, h2, h3⟩ := parts_assemble negative (by decide : 2047 < 2048) hfraction
  have hsign : decide (negative.toNat = 1) = negative := by cases negative <;> rfl
  unfold ofBits
  dsimp only
  rw [dif_pos h2, h1, h3, hsign]

/-! ## From units to bits -/

theorem lastPlace_of_lt {n : Nat} (h : n < 2 ^ 53) : lastPlace n = 0 := by
  unfold lastPlace
  by_cases hzero : n = 0
  · simp [hzero]
  · have hlog := (Nat.log2_lt hzero).mpr h
    omega

theorem lastPlace_mul {m : Nat} (e : Nat) (hlower : 2 ^ 52 ≤ m) (hupper : m < 2 ^ 53) :
    lastPlace (m * 2 ^ e) = e := by
  have hpos := Nat.two_pow_pos e
  have hne : m * 2 ^ e ≠ 0 := Nat.mul_ne_zero (by omega) hpos.ne'
  have hlog : 52 + e ≤ (m * 2 ^ e).log2 := by
    rw [Nat.le_log2 hne, Nat.pow_add]
    exact Nat.mul_le_mul_right _ hlower
  have hlog' : (m * 2 ^ e).log2 < 53 + e := by
    rw [Nat.log2_lt hne, Nat.pow_add]
    exact Nat.mul_lt_mul_of_pos_right hupper hpos
  unfold lastPlace
  omega

theorem magnitudeBits_unitsOf (hfraction : fraction < 2 ^ 52) :
    magnitudeBits (unitsOf field fraction) = field * 2 ^ 52 + fraction := by
  unfold magnitudeBits unitsOf
  split
  · next hzero =>
    rw [lastPlace_of_lt (by omega), hzero]
    simp
  · next hpos =>
    rw [lastPlace_mul (field - 1) (by omega) (by omega), Nat.shiftRight_eq_div_pow,
      Nat.mul_div_cancel _ (Nat.two_pow_pos _), Nat.shiftLeft_eq]
    have hfield : field = field - 1 + 1 := by omega
    conv_rhs => rw [hfield, Nat.add_mul]
    omega

/-- **A pattern of bits is that of its double**, unless this is not a number. -/
theorem toBits_ofBits {b : UInt64} (h : ofBits b ≠ nan) : (ofBits b).toBits = b := by
  obtain ⟨negative, field, fraction, hfield, hfraction, rfl⟩ := exists_assemble b
  by_cases hfull : field = 2047
  · subst hfull
    rw [ofBits_assemble_full hfraction] at h ⊢
    split at h
    · next hzero =>
      subst hzero
      rw [if_pos rfl]
      cases negative <;> rfl
    · exact absurd rfl h
  · have hbelow : field < 2047 := by omega
    obtain ⟨hunits, hfinite⟩ := ofBits_assemble negative hbelow hfraction
    rw [hfinite, toBits, magnitudeBits_unitsOf hfraction, assemble, Nat.add_assoc]

/-! ## From bits to units -/

/-- Each representable magnitude is made of the two fields. -/
theorem exists_unitsOf {n : Nat} (hn : Representable n) :
    ∃ field fraction, field < 2047 ∧ fraction < 2 ^ 52 ∧ n = unitsOf field fraction := by
  rcases Nat.lt_or_ge n (2 ^ 52) with hsmall | hlarge
  · exact ⟨0, n, by decide, hsmall, rfl⟩
  · have hne : n ≠ 0 := by omega
    have hlog : 52 ≤ n.log2 := (Nat.le_log2 hne).mpr hlarge
    have hlog' : n.log2 < limitPlace := by
      rw [Nat.log2_lt hne, ← Nat.one_shiftLeft]
      exact hn.1
    have hlimit : limitPlace = 2098 := rfl
    have hplace : 52 + lastPlace n = n.log2 := by
      unfold lastPlace
      omega
    -- 53 digits are left, and the first of them is not written down
    have hlower : 2 ^ 52 ≤ n >>> lastPlace n := by
      rw [Nat.shiftRight_eq_div_pow, Nat.le_div_iff_mul_le (Nat.two_pow_pos _), ← Nat.pow_add,
        hplace]
      exact Nat.log2_self_le hne
    have hupper : n >>> lastPlace n < 2 ^ 53 := by
      rw [Nat.shiftRight_eq_div_pow, Nat.div_lt_iff_lt_mul (Nat.two_pow_pos _), ← Nat.pow_add,
        show 53 + lastPlace n = n.log2 + 1 by omega]
      exact Nat.lt_log2_self
    refine ⟨lastPlace n + 1, n >>> lastPlace n - 2 ^ 52, by omega, by omega, ?_⟩
    rw [unitsOf, if_neg (Nat.succ_ne_zero _), Nat.add_sub_cancel' hlower, Nat.add_sub_cancel,
      ← Nat.shiftLeft_eq]
    exact hn.2.symm

/-- **A double is that of its bits.** -/
theorem ofBits_toBits (x : Double) : ofBits x.toBits = x := by
  cases x with
  | nan => decide
  | infinity negative => cases negative <;> decide
  | finite negative n hn =>
      obtain ⟨field, fraction, hfield, hfraction, rfl⟩ := exists_unitsOf hn
      obtain ⟨hunits, hfinite⟩ := ofBits_assemble negative hfield hfraction
      rw [toBits, magnitudeBits_unitsOf hfraction, ← Nat.add_assoc]
      exact hfinite

/-- The first bit of a double is its sign. -/
theorem toBits_div (negative : Bool) {n : Nat} (hn : Representable n) :
    (finite negative n hn).toBits.toNat / 2 ^ 63 = negative.toNat := by
  obtain ⟨field, fraction, hfield, hfraction, rfl⟩ := exists_unitsOf hn
  have hparts := parts_assemble negative (by omega : field < 2048) hfraction
  rw [toBits, magnitudeBits_unitsOf hfraction, ← Nat.add_assoc, ← Nat.one_shiftLeft]
  exact hparts.1

end LineCalc.Double
