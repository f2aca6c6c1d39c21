/-!
# Doubles

A finite double is a whole number of units of `2 ^ -1074`, with a sign, so that
every finite double is an exact number and nothing about it has to be taken on
trust. Which whole numbers occur is `Double.Representable`: they stay below
`2 ^ 1024`, and of their binary digits only the first 53 may differ from zero.

Every operation is the exact one followed by one rounding. `roundDiv` rounds a
quotient to the nearest whole number, a tie to the even one; `roundUnits` does so
on the last place that 53 digits leave, and `representable_roundUnits` says that
its result is a double whenever it is not too large for one. Results from
`2 ^ 1024` on are infinite.
-/

namespace LineCalc

/-- The nearest whole number to a quotient; of two equally near the even one. -/
def roundDiv (num den : Nat) : Nat :=
  let q := num / den
  let r := num % den
  if 2 * r < den then q
  else if den < 2 * r then q + 1
  else if q % 2 = 0 then q else q + 1

theorem div_le_roundDiv (num den : Nat) : num / den ≤ roundDiv num den := by
  unfold roundDiv; dsimp only; split <;> (try split) <;> (try split) <;> omega

theorem roundDiv_le_succ (num den : Nat) : roundDiv num den ≤ num / den + 1 := by
  unfold roundDiv; dsimp only; split <;> (try split) <;> (try split) <;> omega

namespace Double

/-- The binary place, counted in units, at which the number one stands. -/
def onePlace : Nat := 1074

/-- The binary place, counted in units, at which `2 ^ 1024` stands. -/
def limitPlace : Nat := onePlace + 1024

/-- The units in the number one. -/
def unitsPerOne : Nat := 1 <<< onePlace

/-- The units in `2 ^ 1024`, where the finite doubles end. -/
def limit : Nat := 1 <<< limitPlace

/-- The binary place of the last of 53 digits, the first being the number's first. -/
def lastPlace (n : Nat) : Nat := n.log2 - 52

/-- Whether so many units are a double: few enough, and nothing after 53 digits. -/
def Representable (n : Nat) : Prop :=
  n < limit ∧ (n >>> lastPlace n) <<< lastPlace n = n

instance (n : Nat) : Decidable (Representable n) := inferInstanceAs (Decidable (_ ∧ _))

/-- A quotient of units, rounded to 53 digits or to whole units. -/
def roundUnits (num den : Nat) : Nat :=
  let e := lastPlace (num / den)
  roundDiv num (den <<< e) <<< e

/-! ## What rounding yields is a double -/

theorem shiftRight_shiftLeft_of_eq {n m k : Nat} (h : n = m <<< k) : (n >>> k) <<< k = n := by
  subst h
  rw [Nat.shiftLeft_shiftRight]

/-- A number of up to 53 digits and then zeros has nothing after 53 digits. -/
theorem digits_of_shiftLeft {m e : Nat} (hm : m ≤ 1 <<< 53) :
    ((m <<< e) >>> lastPlace (m <<< e)) <<< lastPlace (m <<< e) = m <<< e := by
  by_cases hm' : m = 1 <<< 53
  · have hplace : lastPlace (m <<< e) = 1 + e := by
      rw [lastPlace, hm', ← Nat.shiftLeft_add, Nat.one_shiftLeft, Nat.log2_two_pow]
      omega
    rw [hplace]
    apply shiftRight_shiftLeft_of_eq (m := 1 <<< 52)
    rw [hm', ← Nat.shiftLeft_add, ← Nat.shiftLeft_add, ← Nat.add_assoc]
  · have hlt : m < 1 <<< 53 := Nat.lt_of_le_of_ne hm hm'
    have hplace : lastPlace (m <<< e) ≤ e := by
      by_cases h0 : m <<< e = 0
      · simp [lastPlace, h0]
      · have hlog : (m <<< e).log2 < 53 + e := by
          rw [Nat.log2_lt h0, Nat.shiftLeft_eq, Nat.pow_add]
          exact Nat.mul_lt_mul_of_pos_right (by simpa [Nat.one_shiftLeft] using hlt)
            (Nat.two_pow_pos e)
        unfold lastPlace
        omega
    apply shiftRight_shiftLeft_of_eq (m := m <<< (e - lastPlace (m <<< e)))
    rw [← Nat.shiftLeft_add, Nat.sub_add_cancel hplace]

theorem roundUnits_significand_le (num den : Nat) :
    roundDiv num (den <<< lastPlace (num / den)) ≤ 1 <<< 53 := by
  refine Nat.le_trans (roundDiv_le_succ ..) ?_
  rw [Nat.one_shiftLeft]
  suffices num / (den <<< lastPlace (num / den)) < 2 ^ 53 by omega
  rw [Nat.shiftLeft_eq, ← Nat.div_div_eq_div_mul, Nat.div_lt_iff_lt_mul (Nat.two_pow_pos _),
    ← Nat.pow_add]
  refine Nat.lt_of_lt_of_le Nat.lt_log2_self ?_
  exact Nat.pow_le_pow_right (by decide) (by unfold lastPlace; omega)

theorem representable_roundUnits {num den : Nat} (h : roundUnits num den < limit) :
    Representable (roundUnits num den) :=
  ⟨h, digits_of_shiftLeft (roundUnits_significand_le num den)⟩

end Double

/-- A binary floating-point number of 64 bits; there is one value that is not a number. -/
inductive Double where
  | nan
  | infinity (negative : Bool)
  /-- So many units of `2 ^ -1074`, with a sign that also zero has. -/
  | finite (negative : Bool) (units : Nat) (representable : Double.Representable units)
deriving DecidableEq

namespace Double

/-- Zero with a sign. -/
def zero (negative : Bool) : Double := .finite negative 0 (by decide)

/-- The double nearest to a quotient of units, infinite from `2 ^ 1024` on. -/
def ofUnits (negative : Bool) (num den : Nat) : Double :=
  if h : roundUnits num den < limit then
    .finite negative (roundUnits num den) (representable_roundUnits h)
  else .infinity negative

/-- The double nearest to an integer. -/
def ofInt (v : Int) : Double := ofUnits (v < 0) (v.natAbs <<< onePlace) 1

/-- The number with the opposite sign. -/
def neg : Double → Double
  | nan => nan
  | infinity negative => infinity !negative
  | finite negative n h => finite (!negative) n h

/-- The units of a finite number, with their sign. -/
def signedUnits (negative : Bool) (n : Nat) : Int := if negative then -n else n

/--
The sum, rounded.

An exact sum of zero is positive, unless both numbers are negative zeros;
opposite infinities have no sum.
-/
def add : Double → Double → Double
  | nan, _ | _, nan => nan
  | infinity a, infinity b => if a = b then infinity a else nan
  | infinity a, finite .. => infinity a
  | finite .., infinity b => infinity b
  | finite a m _, finite b n _ =>
    let sum := signedUnits a m + signedUnits b n
    if sum = 0 then zero (a && b) else ofUnits (sum < 0) sum.natAbs 1

/-- The difference, rounded: the sum with the opposite. -/
def sub (x y : Double) : Double := x.add y.neg

/-- The product, rounded; zero times infinity is not a number. -/
def mul : Double → Double → Double
  | nan, _ | _, nan => nan
  | infinity a, infinity b => infinity (a != b)
  | infinity a, finite b n _ => if n = 0 then nan else infinity (a != b)
  | finite a m _, infinity b => if m = 0 then nan else infinity (a != b)
  | finite a m _, finite b n _ => ofUnits (a != b) (m * n) unitsPerOne

/--
The quotient, rounded.

Dividing by zero gives an infinity whose sign comes from both signs; zero by zero
and infinity by infinity are not numbers.
-/
def div : Double → Double → Double
  | nan, _ | _, nan => nan
  | infinity _, infinity _ => nan
  | infinity a, finite b _ _ => infinity (a != b)
  | finite a _ _, infinity b => zero (a != b)
  | finite a m _, finite b n _ =>
    if n = 0 then
      if m = 0 then nan else infinity (a != b)
    else ofUnits (a != b) (m <<< onePlace) n

instance : Neg Double := ⟨neg⟩
instance : Add Double := ⟨add⟩
instance : Sub Double := ⟨sub⟩
instance : Mul Double := ⟨mul⟩
instance : Div Double := ⟨div⟩

end Double

end LineCalc
