import LineCalc.Double.Basic

/-!
# The 64 bits of a double

The interchange layout: a sign bit, eleven bits of exponent, 52 bits of fraction.
In units of `2 ^ -1074` the exponent field counts how often the last place was
doubled, so a finite number's field and fraction together are its significand
plus that count times `2 ^ 52`.
-/

namespace LineCalc.Double

/-- The exponent and fraction fields of infinity; all larger ones are not numbers. -/
def infinityBits : Nat := 2047 <<< 52

/-- The bits of the one value that is not a number. -/
def nanBits : Nat := infinityBits + 1 <<< 51

/-- The exponent and fraction fields of so many units. -/
def magnitudeBits (n : Nat) : Nat := lastPlace n <<< 52 + n >>> lastPlace n

/-- The sign bit. -/
def signBit (negative : Bool) : Nat := if negative then 1 <<< 63 else 0

/-- The bits of a double. -/
def toBits : Double → UInt64
  | nan => UInt64.ofNat nanBits
  | infinity negative => UInt64.ofNat (signBit negative + infinityBits)
  | finite negative n _ => UInt64.ofNat (signBit negative + magnitudeBits n)

/-- A significand of up to 53 digits, doubled up to 2045 times, is a double. -/
theorem representable_shiftLeft {m e : Nat} (hm : m < 1 <<< 53) (he : e ≤ 2045) :
    Representable (m <<< e) := by
  refine ⟨?_, digits_of_shiftLeft (Nat.le_of_lt hm)⟩
  rw [Nat.one_shiftLeft] at hm
  rw [Nat.shiftLeft_eq, limit, Nat.one_shiftLeft]
  calc m * 2 ^ e < 2 ^ 53 * 2 ^ e := Nat.mul_lt_mul_of_pos_right hm (Nat.two_pow_pos e)
    _ = 2 ^ (53 + e) := (Nat.pow_add 2 53 e).symm
    _ ≤ 2 ^ limitPlace :=
      Nat.pow_le_pow_right (by decide) (by unfold limitPlace onePlace; omega)

/-- The double with given bits. -/
def ofBits (bits : UInt64) : Double :=
  let negative := bits.toNat / (1 <<< 63) = 1
  let field := bits.toNat / (1 <<< 52) % 2048
  let fraction := bits.toNat % (1 <<< 52)
  if full : field = 2047 then
    if fraction = 0 then .infinity negative else .nan
  else if field = 0 then
    .finite negative (fraction <<< 0)
      (representable_shiftLeft (by simp [fraction]; omega) (by omega))
  else
    .finite negative ((1 <<< 52 + fraction) <<< (field - 1))
      (representable_shiftLeft (by simp [fraction]; omega) (by omega))

end LineCalc.Double
