import Mathlib
import LineCalc.Evaluation.Floating

/-!
# Doubles that are whole numbers

Every operation on doubles is the exact one and then one rounding, and rounding what is a
double already changes nothing (`roundUnits_mul`). A whole number of magnitude up to
`2 ^ 53` is a double. So as long as exact results are such numbers, doubles compute with
whole numbers and no rounding is ever seen.

`Double.Equals` compares numbers and not signs: a zero of either sign equals zero. That is
what the operations keep. A product or a quotient may come out as a negative zero where the
integer is just zero, and both go on to be equal, as long as nothing is divided by them.
-/

namespace LineCalc.Double

/-! ## Rounding what is a double -/

theorem roundDiv_mul (q : Nat) {den : Nat} (h : 0 < den) : roundDiv (q * den) den = q := by
  have hdiv : q * den / den = q := Nat.mul_div_cancel q h
  have hmod : q * den % den = 0 := Nat.mul_mod_left q den
  unfold roundDiv
  simp only [hdiv, hmod, Nat.mul_zero, if_pos h]

theorem roundUnits_mul {n den : Nat} (hn : Representable n) (h : 0 < den) :
    roundUnits (n * den) den = n := by
  have hplaces : (n >>> lastPlace n) <<< lastPlace n = n := hn.2
  -- nothing stands after the last place, so the quotient on that place is whole
  have hnum : n * den = (n >>> lastPlace n) * (den <<< lastPlace n) := by
    conv_lhs => rw [← hplaces]
    rw [Nat.shiftLeft_eq, Nat.shiftLeft_eq, Nat.mul_assoc, Nat.mul_comm (2 ^ _) den]
  have hpos : 0 < den <<< lastPlace n := by
    rw [Nat.shiftLeft_eq]
    exact Nat.mul_pos h (Nat.two_pow_pos _)
  unfold roundUnits
  rw [Nat.mul_div_cancel n h]
  simp only
  rw [hnum, roundDiv_mul _ hpos, hplaces]

/-- A quotient of units that is a double is that double. -/
theorem ofUnits_mul (negative : Bool) {n den : Nat} (hn : Representable n) (h : 0 < den) :
    ofUnits negative (n * den) den = .finite negative n hn := by
  have hround := roundUnits_mul hn h
  have hlimit : roundUnits (n * den) den < limit := by rw [hround]; exact hn.1
  rw [ofUnits, dif_pos hlimit]
  simp only [hround]

/-! ## Whole numbers -/

/-- Whether a double is an integer, the sign of a zero apart. -/
def Equals (x : Double) (v : Int) : Prop :=
  ∃ negative n h, x = .finite negative n h ∧ signedUnits negative n = v * unitsPerOne

theorem unitsPerOne_pos : 0 < unitsPerOne := by
  rw [unitsPerOne, Nat.one_shiftLeft]
  exact Nat.two_pow_pos onePlace

theorem representable_mul_unitsPerOne {n : Nat} (h : n ≤ 2 ^ 53) :
    Representable (n * unitsPerOne) := by
  have hshift : n * unitsPerOne = n <<< onePlace := by
    rw [unitsPerOne, Nat.one_shiftLeft, Nat.shiftLeft_eq]
  have hbound : 53 + onePlace < limitPlace := by
    unfold limitPlace
    omega
  rw [hshift]
  refine ⟨?_, digits_of_shiftLeft (by rw [Nat.one_shiftLeft]; exact h)⟩
  rw [limit, Nat.one_shiftLeft, Nat.shiftLeft_eq]
  calc n * 2 ^ onePlace ≤ 2 ^ 53 * 2 ^ onePlace := Nat.mul_le_mul_right _ h
    _ = 2 ^ (53 + onePlace) := by rw [Nat.pow_add]
    _ < 2 ^ limitPlace := Nat.pow_lt_pow_right Nat.one_lt_two hbound

/-- The units of an integer, and the signs that it can have. -/
theorem signedUnits_eq_iff {negative : Bool} {n : Nat} {v : Int} :
    signedUnits negative n = v * unitsPerOne ↔
      n = v.natAbs * unitsPerOne ∧ (negative = true → v ≤ 0) ∧ (negative = false → 0 ≤ v) := by
  have hpos : (0 : Int) < unitsPerOne := by exact_mod_cast unitsPerOne_pos
  have habs : (signedUnits negative n).natAbs = n := by cases negative <;> simp [signedUnits]
  constructor
  · intro h
    refine ⟨?_, ?_, ?_⟩
    · rw [← habs, h, Int.natAbs_mul, Int.natAbs_natCast]
    · rintro rfl
      have hle : v * unitsPerOne ≤ 0 := by rw [← h]; simp [signedUnits]
      exact nonpos_of_mul_nonpos_left hle hpos
    · rintro rfl
      have hle : 0 ≤ v * unitsPerOne := by rw [← h]; simp [signedUnits]
      exact nonneg_of_mul_nonneg_left hle hpos
  · rintro ⟨rfl, hnegative, hpositive⟩
    cases negative with
    | true =>
        have hv := hnegative rfl
        simp only [signedUnits, if_true]
        push_cast
        rw [abs_of_nonpos hv, Int.neg_mul, Int.neg_neg]
    | false =>
        have hv := hpositive rfl
        simp only [signedUnits, Bool.false_eq_true, if_false]
        push_cast
        rw [abs_of_nonneg hv]

theorem equals_finite {negative : Bool} {n : Nat} {v : Int} {h : Representable n} :
    (finite negative n h).Equals v ↔
      n = v.natAbs * unitsPerOne ∧ (negative = true → v ≤ 0) ∧ (negative = false → 0 ≤ v) := by
  rw [← signedUnits_eq_iff]
  constructor
  · rintro ⟨_, _, _, hx, hv⟩
    cases hx
    exact hv
  · exact fun hv => ⟨negative, n, h, rfl, hv⟩

/-- A double that equals an integer is finite, and the integer tells its sign and magnitude. -/
theorem Equals.exists_finite {x : Double} {v : Int} (h : x.Equals v) :
    ∃ negative n hn, x = finite negative n hn ∧
      n = v.natAbs * unitsPerOne ∧ (negative = true → v ≤ 0) ∧ (negative = false → 0 ≤ v) := by
  obtain ⟨negative, n, hn, hx, hv⟩ := h
  exact ⟨negative, n, hn, hx, signedUnits_eq_iff.mp hv⟩

/-! ## Operations whose exact result is a whole number -/

/-- A quotient of units that comes to a small integer is rounded to that integer. -/
theorem equals_ofUnits {negative : Bool} {num den : Nat} {v : Int} (hden : 0 < den)
    (hnum : num = v.natAbs * unitsPerOne * den) (hv : v.natAbs ≤ 2 ^ 53)
    (hnegative : negative = true → v ≤ 0) (hpositive : negative = false → 0 ≤ v) :
    (ofUnits negative num den).Equals v := by
  rw [hnum, ofUnits_mul negative (representable_mul_unitsPerOne hv) hden]
  exact equals_finite.mpr ⟨rfl, hnegative, hpositive⟩

theorem equals_ofInt {v : Int} (hv : v.natAbs ≤ 2 ^ 53) : (ofInt v).Equals v := by
  have hunits : v.natAbs <<< onePlace = v.natAbs * unitsPerOne * 1 := by
    rw [Nat.mul_one, unitsPerOne, Nat.one_shiftLeft, Nat.shiftLeft_eq]
  exact equals_ofUnits Nat.one_pos hunits hv (by simpa using Int.le_of_lt) (by simp)

variable {x y : Double} {v w : Int}

theorem Equals.neg (h : x.Equals v) : (-x).Equals (-v) := by
  obtain ⟨a, m, hm, rfl, hunits, hnegative, hpositive⟩ := h.exists_finite
  have hneg : -finite a m hm = finite (!a) m hm := rfl
  rw [hneg]
  refine equals_finite.mpr ⟨by rw [Int.natAbs_neg]; exact hunits, fun ha => ?_, fun ha => ?_⟩
  · have hv := hpositive (by simpa using ha)
    omega
  · have hv := hnegative (by simpa using ha)
    omega

theorem Equals.add (hx : x.Equals v) (hy : y.Equals w) (hsmall : (v + w).natAbs ≤ 2 ^ 53) :
    (x + y).Equals (v + w) := by
  obtain ⟨a, m, hm, rfl, hv⟩ := hx
  obtain ⟨b, n, hn, rfl, hw⟩ := hy
  have hpos : (0 : Int) < unitsPerOne := by exact_mod_cast unitsPerOne_pos
  have hsum : signedUnits a m + signedUnits b n = (v + w) * unitsPerOne := by
    rw [hv, hw, Int.add_mul]
  have hadd : finite a m hm + finite b n hn =
      if (v + w) * (unitsPerOne : Int) = 0 then zero (a && b)
      else ofUnits ((v + w) * unitsPerOne < 0) ((v + w) * unitsPerOne).natAbs 1 := by
    rw [← hsum]
    rfl
  rw [hadd]
  by_cases hzero : v + w = 0
  · -- the sign of an exact zero depends on the operands, and is not looked at
    rw [if_pos (by rw [hzero, Int.zero_mul]), hzero]
    exact equals_finite.mpr ⟨by simp, fun _ => Int.le_refl 0, fun _ => Int.le_refl 0⟩
  · rw [if_neg (Int.mul_ne_zero hzero hpos.ne')]
    refine equals_ofUnits Nat.one_pos ?_ hsmall (fun hneg => ?_) (fun hneg => ?_)
    · rw [Int.natAbs_mul, Int.natAbs_natCast, Nat.mul_one]
    · exact Int.le_of_lt (neg_of_mul_neg_left (of_decide_eq_true hneg) hpos.le)
    · have hle : 0 ≤ (v + w) * (unitsPerOne : Int) := by simpa using hneg
      exact nonneg_of_mul_nonneg_left hle hpos

theorem Equals.sub (hx : x.Equals v) (hy : y.Equals w) (hsmall : (v - w).natAbs ≤ 2 ^ 53) :
    (x - y).Equals (v - w) := by
  have hsub : x - y = x + -y := rfl
  rw [hsub, Int.sub_eq_add_neg]
  exact hx.add hy.neg (by rwa [← Int.sub_eq_add_neg])

/-- Of two signs, different ones make a product negative, as far as it is not zero. -/
theorem sign_mul {a b : Bool} (hv : (a = true → v ≤ 0) ∧ (a = false → 0 ≤ v))
    (hw : (b = true → w ≤ 0) ∧ (b = false → 0 ≤ w)) :
    ((a != b) = true → v * w ≤ 0) ∧ ((a != b) = false → 0 ≤ v * w) := by
  cases a with
  | false =>
      cases b with
      | false =>
          exact ⟨fun h => absurd h (by decide), fun _ => Int.mul_nonneg (hv.2 rfl) (hw.2 rfl)⟩
      | true =>
          have hle := Int.mul_nonpos_of_nonneg_of_nonpos (hv.2 rfl) (hw.1 rfl)
          exact ⟨fun _ => hle, fun h => absurd h (by decide)⟩
  | true =>
      cases b with
      | false =>
          have hle := Int.mul_nonpos_of_nonpos_of_nonneg (hv.1 rfl) (hw.2 rfl)
          exact ⟨fun _ => hle, fun h => absurd h (by decide)⟩
      | true =>
          have hle := Int.mul_nonneg_of_nonpos_of_nonpos (hv.1 rfl) (hw.1 rfl)
          exact ⟨fun h => absurd h (by decide), fun _ => hle⟩

theorem Equals.mul (hx : x.Equals v) (hy : y.Equals w) (hsmall : (v * w).natAbs ≤ 2 ^ 53) :
    (x * y).Equals (v * w) := by
  obtain ⟨a, m, hm, rfl, hm', hv⟩ := hx.exists_finite
  obtain ⟨b, n, hn, rfl, hn', hw⟩ := hy.exists_finite
  have hmul : finite a m hm * finite b n hn = ofUnits (a != b) (m * n) unitsPerOne := rfl
  have hunits : m * n = (v * w).natAbs * unitsPerOne * unitsPerOne := by
    rw [hm', hn', Int.natAbs_mul]
    ring
  obtain ⟨hnegative, hpositive⟩ := sign_mul hv hw
  rw [hmul]
  exact equals_ofUnits unitsPerOne_pos hunits hsmall hnegative hpositive

/-- A quotient without remainder, of a divisor that is not a zero of any sign. -/
theorem Equals.div {q : Int} (hx : x.Equals (q * w)) (hy : y.Equals w) (hw : w ≠ 0)
    (hsmall : q.natAbs ≤ 2 ^ 53) : (x / y).Equals q := by
  obtain ⟨a, m, hm, rfl, hm', ha⟩ := hx.exists_finite
  obtain ⟨b, n, hn, rfl, hn', hb⟩ := hy.exists_finite
  have hpos : 0 < n := by
    rw [hn']
    exact Nat.mul_pos (Int.natAbs_pos.mpr hw) unitsPerOne_pos
  have hdiv : finite a m hm / finite b n hn =
      if n = 0 then if m = 0 then nan else infinity (a != b)
      else ofUnits (a != b) (m <<< onePlace) n := rfl
  have hunits : m <<< onePlace = q.natAbs * unitsPerOne * n := by
    rw [hm', hn', Nat.shiftLeft_eq, ← Nat.one_shiftLeft, ← unitsPerOne, Int.natAbs_mul]
    ring
  -- the sign of the quotient is that of the quotient times a square
  have hsquare : 0 < w * w := mul_self_pos.mpr hw
  obtain ⟨hnegative, hpositive⟩ := sign_mul ha hb
  rw [Int.mul_assoc] at hnegative hpositive
  rw [hdiv, if_neg hpos.ne']
  exact equals_ofUnits hpos hunits hsmall
    (fun h => nonpos_of_mul_nonpos_left (hnegative h) hsquare)
    (fun h => nonneg_of_mul_nonneg_left (hpositive h) hsquare)

end LineCalc.Double
