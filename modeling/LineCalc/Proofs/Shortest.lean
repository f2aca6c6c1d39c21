import LineCalc.Proofs.Rounding

/-!
# The shortest decimal reads back

`Decimal.shortest` looks for a decimal on one grid after the other, from a coarse one down. On
each it tries only the two neighbours of the number. That is enough, because what reads as the
number lies together with it: a point of the grid that does so, and lies further away, has a
neighbour between itself and the number, and this reads as the number too
(`exists_onGrid?`). So the decimal that is found lies on the coarsest grid there is for the
number (`search_coarsest`).

From this follows what is wanted of a decimal that is shown. It reads back
(`units_shortest`), no decimal that reads back has fewer digits (`length_shortest_le`), and
that of a whole number is whole, because a whole number is a point on the grid of the ones.
-/

namespace LineCalc

namespace Decimal

variable {n : Nat} {e : Int}

/-! ## One grid -/

theorem value_mono {k m : Nat} (h : k ≤ m) (e : Int) :
    (⟨k, e⟩ : Decimal).value ≤ (⟨m, e⟩ : Decimal).value := by
  have hle : (k : ℚ) ≤ m := by exact_mod_cast h
  have hpos : (0 : ℚ) < 10 ^ e := zpow_pos (by norm_num) e
  exact mul_le_mul_of_nonneg_right hle hpos.le

theorem value_mono_exponent {f : Int} (h : e ≤ f) (k : Nat) :
    (⟨k, e⟩ : Decimal).value ≤ (⟨k, f⟩ : Decimal).value :=
  mul_le_mul_of_nonneg_left (zpow_le_zpow_right₀ (by norm_num) h) (Nat.cast_nonneg k)

theorem value_pow (p : Nat) (e : Int) : (⟨10 ^ p, e⟩ : Decimal).value = 10 ^ (p + e) := by
  rw [value, zpow_add₀ (by norm_num), zpow_natCast]
  push_cast
  rfl

theorem value_one (e : Int) : (⟨1, e⟩ : Decimal).value = 10 ^ e := by simp [value]

/-- The point of a grid below a number. -/
def below (n : Nat) (e : Int) : Nat :=
  n * tenPow (-e).toNat / (tenPow e.toNat <<< Double.onePlace)

/-- A number of units, counted in steps of a grid. -/
theorem exact_eq_mul (n : Nat) (e : Int) :
    Double.exact n = (n * tenPow (-e).toNat : Nat) /
      (tenPow e.toNat <<< Double.onePlace : Nat) * 10 ^ e := by
  have hten : (10 : ℚ) ^ e.toNat ≠ 0 := by positivity
  rw [Double.exact, unitsPerOne_eq, Nat.shiftLeft_eq, tenPow_eq, tenPow_eq]
  push_cast
  rw [div_mul_eq_mul_div, mul_assoc, mul_comm _ ((10 : ℚ) ^ e), zpow_mul_pow_toNat,
    mul_comm ((10 : ℚ) ^ e.toNat),
    mul_div_mul_right _ _ hten]

theorem value_below_le (n : Nat) (e : Int) :
    (⟨below n e, e⟩ : Decimal).value ≤ Double.exact n := by
  rw [exact_eq_mul n e, value]
  exact mul_le_mul_of_nonneg_right Nat.cast_div_le (zpow_pos (by norm_num) e).le

theorem lt_value_below_succ (n : Nat) (e : Int) :
    Double.exact n < (⟨below n e + 1, e⟩ : Decimal).value := by
  have hden : 0 < tenPow e.toNat <<< Double.onePlace := by
    rw [Nat.shiftLeft_eq]
    exact Nat.mul_pos (Nat.pow_pos (by decide)) (Nat.two_pow_pos _)
  have hlt : ((n * tenPow (-e).toNat : Nat) : ℚ) / (tenPow e.toNat <<< Double.onePlace : Nat) <
      (below n e + 1 : Nat) := by
    rw [div_lt_iff₀ (by exact_mod_cast hden)]
    exact_mod_cast Nat.lt_mul_of_div_lt (Nat.lt_succ_self _) hden
  rw [exact_eq_mul n e, value]
  exact mul_lt_mul_of_pos_right hlt (zpow_pos (by norm_num) e)

theorem onGrid?_eq (n : Nat) (e : Int) : onGrid? n e =
    ([roundDiv (n * tenPow (-e).toNat) (tenPow e.toNat <<< Double.onePlace), below n e,
      below n e + 1].map (⟨·, e⟩)).find? (·.units == n) := rfl

/-- What is found on a grid reads back, and is not more than a step above the number. -/
theorem of_onGrid? {d : Decimal} (h : onGrid? n e = some d) :
    d.units = n ∧ d.exponent = e ∧ (⟨d.digits - 1, e⟩ : Decimal).value ≤ Double.exact n := by
  have hround : roundDiv (n * tenPow (-e).toNat) (tenPow e.toNat <<< Double.onePlace) ≤
      below n e + 1 := roundDiv_le_succ _ _
  rw [onGrid?_eq] at h
  have hunits := List.find?_some h
  obtain ⟨k, hk, rfl⟩ := List.mem_map.mp (List.mem_of_find?_eq_some h)
  have hnear : k ≤ below n e + 1 := by
    simp only [List.mem_cons, List.not_mem_nil, or_false] at hk
    rcases hk with hk | hk | hk
    · exact hk.trans_le hround
    · exact hk.trans_le (Nat.le_succ _)
    · exact hk.le
  exact ⟨eq_of_beq hunits, rfl,
    (value_mono (Nat.sub_le_of_le_add hnear) e).trans (value_below_le n e)⟩

/-- **If a point of a grid reads as a number, one is found.** -/
theorem exists_onGrid? (hn : Double.Representable n) {k : Nat}
    (hk : (⟨k, e⟩ : Decimal).units = n) : ∃ d, onGrid? n e = some d := by
  have hneighbour : (⟨below n e, e⟩ : Decimal).units = n ∨
      (⟨below n e + 1, e⟩ : Decimal).units = n := by
    rcases Nat.lt_or_ge (below n e) k with hlt | hge
    · have hupper := units_le_units (value_mono (Nat.succ_le_of_lt hlt) e)
      have hlower := le_units_of_le_value hn (lt_value_below_succ n e).le
      rw [hk] at hupper
      exact .inr (Nat.le_antisymm hupper hlower)
    · have hlower := units_le_units (value_mono hge e)
      have hupper := units_le_of_value_le hn (value_below_le n e)
      rw [hk] at hlower
      exact .inl (Nat.le_antisymm hupper hlower)
  rw [← Option.isSome_iff_exists, onGrid?_eq, List.find?_isSome]
  rcases hneighbour with h | h
  · exact ⟨⟨below n e, e⟩, List.mem_map_of_mem (by simp), beq_iff_eq.mpr h⟩
  · exact ⟨⟨below n e + 1, e⟩, List.mem_map_of_mem (by simp), beq_iff_eq.mpr h⟩

/-! ## One grid after the other -/

/-- What is found when the search begins on the grid of `10 ^ most`. -/
structure Coarsest (n : Nat) (most : Int) (d : Decimal) : Prop where
  units_eq : d.units = n
  near : (⟨d.digits - 1, d.exponent⟩ : Decimal).value ≤ Double.exact n
  coarsest : ∀ (k : Nat) (e : Int), d.exponent < e → e ≤ most → (⟨k, e⟩ : Decimal).units ≠ n

section

attribute [local irreducible] onGrid?

theorem search_succ (n steps : Nat) : search n (steps + 1) =
    match onGrid? n (steps + 1 - Double.onePlace) with
    | some d => d
    | none => search n steps := rfl

end

theorem search_zero (n : Nat) :
    search n 0 = ⟨n * Nat.pow 5 Double.onePlace, -Double.onePlace⟩ := rfl

/-- On the last grid every double is a point. -/
theorem value_search_zero (n : Nat) : (search n 0).value = Double.exact n := by
  have hfive : (5 : ℚ) ^ Double.onePlace ≠ 0 := by positivity
  have hten : (10 : ℚ) ^ Double.onePlace = 5 ^ Double.onePlace * 2 ^ Double.onePlace := by
    rw [← mul_pow]
    norm_num
  rw [search_zero, value, Double.exact, unitsPerOne_eq, Nat.pow_eq]
  push_cast
  rw [zpow_neg, zpow_natCast, hten, mul_inv, ← mul_assoc, mul_assoc (n : ℚ),
    mul_inv_cancel₀ hfive, mul_one, div_eq_mul_inv]

/-- Of the grids that are tried, none that is coarser than the one found has a decimal for it. -/
theorem search_coarsest (hn : Double.Representable n) (steps : Nat) :
    Coarsest n (steps - Double.onePlace) (search n steps) := by
  induction steps with
  | zero =>
      have hvalue := value_search_zero n
      refine ⟨units_eq_of_value_eq hn hvalue, ?_, fun k e hlt hle => ?_⟩
      · exact (value_mono (Nat.sub_le _ 1) _).trans hvalue.le
      · have hexponent : (search n 0).exponent = -Double.onePlace := rfl
        rw [hexponent] at hlt
        push_cast at hle
        omega
  | succ steps ih =>
      rw [search_succ]
      cases hgrid : onGrid? n (steps + 1 - Double.onePlace) with
      | some d =>
          obtain ⟨hunits, hexponent, hnear⟩ := of_onGrid? hgrid
          refine ⟨hunits, by rw [hexponent]; exact hnear, fun k e hlt hle => ?_⟩
          rw [hexponent] at hlt
          push_cast at hle
          omega
      | none =>
          refine ⟨ih.units_eq, ih.near, fun k e hlt hle hk => ?_⟩
          rcases hle.lt_or_eq with hless | rfl
          · exact ih.coarsest k e hlt (by push_cast at hless; omega) hk
          · obtain ⟨d, hd⟩ := exists_onGrid? hn hk
            push_cast at hd
            rw [hgrid] at hd
            cases hd

/-! ## The shortest decimal -/

theorem units_zero : (⟨0, 0⟩ : Decimal).units = 0 :=
  units_eq_of_value_eq (by decide) (by simp [value, Double.exact])

/-- The power of ten from which the search goes down. -/
def most (n : Nat) : Nat := (Nat.toDigits 10 (n >>> Double.onePlace)).length

theorem exact_lt_pow_most (n : Nat) : Double.exact n < 10 ^ (most n : Int) := by
  have hlt : n >>> Double.onePlace < 10 ^ most n :=
    (Nat.length_toDigits_le_iff (by decide) Nat.length_toDigits_pos).mp (Nat.le_refl (most n))
  rw [Nat.shiftRight_eq_div_pow, Nat.div_lt_iff_lt_mul (Nat.two_pow_pos _)] at hlt
  rw [Double.exact, div_lt_iff₀ (by exact_mod_cast Double.unitsPerOne_pos), unitsPerOne_eq,
    zpow_natCast]
  exact_mod_cast hlt

theorem shortest_coarsest (hn : Double.Representable n) (hpos : n ≠ 0) :
    Coarsest n (most n) (shortest n) := by
  have hsearch := search_coarsest hn (Double.onePlace + most n)
  have hmost : ((Double.onePlace + most n : Nat) : Int) - Double.onePlace = most n := by
    push_cast
    omega
  rw [hmost] at hsearch
  rw [shortest, if_neg hpos]
  exact hsearch

/-- **The shortest decimal reads back.** -/
theorem units_shortest (hn : Double.Representable n) : (shortest n).units = n := by
  by_cases hpos : n = 0
  · subst hpos
    exact units_zero
  · exact (shortest_coarsest hn hpos).units_eq

theorem units_eq_zero {d : Decimal} (h : d.digits = 0) : d.units = 0 := by
  have hvalue : d.value = (⟨0, 0⟩ : Decimal).value := by simp [value, h]
  rw [units_eq_units hvalue, units_zero]

theorem digits_pos_of_units {d : Decimal} (h : d.units = n) (hpos : n ≠ 0) : 1 ≤ d.digits :=
  Nat.pos_of_ne_zero fun hzero => hpos (h.symm.trans (units_eq_zero hzero))

/-- The shortest decimal of a whole number is whole. -/
theorem exponent_shortest_nonneg (hn : Double.Representable n) {m : Nat}
    (hm : n = m * Double.unitsPerOne) : 0 ≤ (shortest n).exponent := by
  by_cases hpos : n = 0
  · rw [shortest, if_pos hpos]
  · by_contra hneg
    have hvalue : (⟨m, 0⟩ : Decimal).value = Double.exact n := by rw [value_whole, hm]
    exact (shortest_coarsest hn hpos).coarsest m 0 (by omega) (by omega)
      (units_eq_of_value_eq hn hvalue)

/-- A decimal of several digits that is found leaves none to be found on a coarser grid. -/
theorem Coarsest.le_exponent {d : Decimal} (h : Coarsest n (most n) d)
    (hn : Double.Representable n) (hpos : n ≠ 0) (hd : 2 ≤ d.digits) {k : Nat} {e : Int}
    (hk : (⟨k, e⟩ : Decimal).units = n) : e ≤ d.exponent := by
  by_contra hlt
  rw [not_le] at hlt
  rcases le_or_gt e (most n) with hle | hgt
  · exact h.coarsest k e hlt hle hk
  · have hmost : Double.exact n < (⟨1, most n⟩ : Decimal).value := by
      rw [value_one]
      exact exact_lt_pow_most n
    -- the first point of the first grid lies between the number and the other decimal
    have hbetween : (⟨1, most n⟩ : Decimal).value ≤ (⟨k, e⟩ : Decimal).value :=
      (value_mono_exponent hgt.le 1).trans (value_mono (digits_pos_of_units hk hpos) e)
    have hfirst : (⟨1, most n⟩ : Decimal).units = n := by
      have hle := units_le_units hbetween
      rw [hk] at hle
      exact Nat.le_antisymm hle (le_units_of_le_value hn hmost.le)
    have hexponent : (most n : Int) ≤ d.exponent := by
      by_contra hless
      exact h.coarsest 1 (most n) (by omega) le_rfl hfirst
    -- but there the number is less than one step, and what is found has one digit
    have hstep : (⟨1, d.exponent⟩ : Decimal).value ≤ Double.exact n :=
      (value_mono (by omega) _).trans h.near
    exact absurd ((value_mono_exponent hexponent 1).trans hstep) (not_le.mpr hmost)

/-- How many digits a decimal is written with. -/
def length (d : Decimal) : Nat := (Nat.toDigits 10 d.digits).length

/-- **No decimal that reads back has fewer digits.** -/
theorem length_shortest_le (hn : Double.Representable n) {d : Decimal} (hd : d.units = n) :
    (shortest n).length ≤ d.length := by
  have hdpos : 0 < d.length := Nat.length_toDigits_pos
  by_cases hpos : n = 0
  · rw [shortest, if_pos hpos]
    exact hdpos
  · by_contra hlt
    have hcoarsest := shortest_coarsest hn hpos
    have hfew : d.digits < 10 ^ d.length :=
      (Nat.length_toDigits_le_iff (by decide) hdpos).mp (Nat.le_refl d.length)
    have hmany : 10 ^ d.length ≤ (shortest n).digits := by
      rw [← not_lt, ← Nat.length_toDigits_le_iff (by decide) hdpos]
      exact hlt
    have htwo : 2 ≤ (shortest n).digits := by
      have hten := Nat.pow_le_pow_right (by decide : 0 < 10) hdpos
      omega
    have hexponent := hcoarsest.le_exponent hn hpos htwo hd
    -- a power of ten lies between the two decimals, on a grid that is too coarse
    have hlower : d.value ≤ (⟨1, d.length + (shortest n).exponent⟩ : Decimal).value := by
      rw [value_one, ← value_pow]
      exact (value_mono hfew.le _).trans (value_mono_exponent hexponent _)
    have hupper : (⟨1, d.length + (shortest n).exponent⟩ : Decimal).value ≤ (shortest n).value := by
      rw [value_one, ← value_pow]
      exact value_mono hmany _
    have hfirst := units_le_units hlower
    have hsecond := units_le_units hupper
    rw [hd] at hfirst
    rw [units_shortest hn] at hsecond
    have hle := hcoarsest.le_exponent hn hpos htwo (Nat.le_antisymm hsecond hfirst)
    omega

end Decimal

end LineCalc
