import LineCalc.Proofs.ExactValue

/-!
# What a division of integers comes to

A quotient is cut off toward zero, and what is cut off is the remainder. `Truncated` says this
of a quotient and a remainder without saying how to find them: the remainder makes up the
dividend, it is smaller than the divisor, and it lies on the side of the dividend. There is
one such pair for every divisor but zero (`truncated_tdiv`, `Truncated.unique`), because two
remainders on the same side differ by less than the divisor.

The usual way to the quotient is to divide the magnitudes and to look at the signs afterwards,
and to see a remainder by multiplying back. `divideByMagnitudes` is that way, and it comes to
the same (`divideByMagnitudes_eq`).
-/

namespace LineCalc

theorem Run.bind_warn {α : Type} (w : Warning) (x : Run α) :
    (Run.warn w >>= fun _ => x) = ⟨w :: x.warnings, x.outcome⟩ :=
  Run.bind_of_ok rfl _

namespace Integer

/-- A quotient cut off toward zero, and the remainder that is lost by that. -/
structure Truncated (a b q r : Int) : Prop where
  sum : a = q * b + r
  small : r.natAbs < b.natAbs
  side : r = 0 ∨ r.sign = a.sign

variable {a b q r : Int}

theorem truncated_tdiv (hb : b ≠ 0) : Truncated a b (a.tdiv b) (a.tmod b) where
  sum := (Int.tdiv_mul_add_tmod a b).symm
  small := by
    rw [Int.natAbs_tmod]
    exact Nat.mod_lt _ (Int.natAbs_pos.mpr hb)
  side := by
    by_cases hdvd : b ∣ a
    · exact .inl (Int.tmod_eq_zero_of_dvd hdvd)
    · exact .inr (by rw [Int.sign_tmod, if_neg hdvd])

/-- A remainder is on the side of the dividend, or nowhere. -/
theorem Truncated.same_side (h : Truncated a b q r) : (0 ≤ a → 0 ≤ r) ∧ (a ≤ 0 → r ≤ 0) := by
  rcases h.side with hzero | hsign
  · exact ⟨fun _ => hzero.ge, fun _ => hzero.le⟩
  · refine ⟨fun ha => ?_, fun ha => ?_⟩
    · rw [← Int.sign_nonneg_iff, hsign, Int.sign_nonneg_iff]
      exact ha
    · rw [← Int.sign_nonpos_iff, hsign, Int.sign_nonpos_iff]
      exact ha

/-- **There is one quotient and one remainder.** -/
theorem Truncated.unique {q' r' : Int} (h : Truncated a b q r) (h' : Truncated a b q' r') :
    q' = q ∧ r' = r := by
  have hsmall := h.small
  have hsmall' := h'.small
  -- both remainders are on one side, so they are less than the divisor apart
  have hapart : (r - r').natAbs < b.natAbs := by
    rcases Int.le_total 0 a with ha | ha
    · have hr := h.same_side.1 ha
      have hr' := h'.same_side.1 ha
      omega
    · have hr := h.same_side.2 ha
      have hr' := h'.same_side.2 ha
      omega
  have hsum : q * b + r = q' * b + r' := h.sum.symm.trans h'.sum
  have hmultiple : r - r' = (q' - q) * b := by
    rw [Int.sub_mul]
    omega
  have hr : r - r' = 0 :=
    Int.eq_zero_of_dvd_of_natAbs_lt_natAbs (Dvd.intro_left _ hmultiple.symm) hapart
  have hb : b ≠ 0 := by
    rintro rfl
    exact absurd hsmall (Nat.not_lt_zero _)
  have hq : q' - q = 0 := (Int.mul_eq_zero.mp (hmultiple.symm.trans hr)).resolve_right hb
  exact ⟨by omega, by omega⟩

/-! ## The run of a division -/

theorem checked_eq (v : Int) :
    checked v = ⟨[], if InRange v then .ok v else .error (.overflow v)⟩ := by
  unfold checked
  split <;> rfl

theorem divide_zero (a : Int) : divide a 0 = ⟨[], .error .divisionByZero⟩ := rfl

/-- A remainder is warned about, whatever becomes of the quotient. -/
theorem divide_of_ne_zero (hb : b ≠ 0) :
    divide a b = ⟨if a.tmod b = 0 then [] else [.truncatedDivision],
      if InRange (a.tdiv b) then .ok (a.tdiv b) else .error (.overflow (a.tdiv b))⟩ := by
  rw [divide, if_neg hb]
  split
  · exact checked_eq _
  · rw [Run.bind_warn, checked_eq]

/-! ## Dividing the magnitudes -/

/-- The quotient of the magnitudes, negative if the signs of the two integers differ. -/
def quotientOfMagnitudes (a b : Int) : Int :=
  let q : Int := a.natAbs / b.natAbs
  if a < 0 ↔ b < 0 then q else -q

/-- A division whose remainder is seen by multiplying the quotient back. -/
def divideByMagnitudes (a b : Int) : Run Int :=
  if b = 0 then throw .divisionByZero
  else do
    let q := quotientOfMagnitudes a b
    if q * b ≠ a then Run.warn .truncatedDivision
    checked q

theorem quotientOfMagnitudes_eq (a b : Int) : quotientOfMagnitudes a b = a.tdiv b := by
  rw [quotientOfMagnitudes]
  by_cases ha : a < 0 <;> by_cases hb : b < 0
  · have habs : (a.natAbs : Int) = -a := by omega
    have hbbs : (b.natAbs : Int) = -b := by omega
    simp only [ha, hb, habs, hbbs, if_true]
    rw [← Int.neg_tdiv_neg, Int.tdiv_eq_ediv_of_nonneg (by omega)]
  · have habs : (a.natAbs : Int) = -a := by omega
    have hbbs : (b.natAbs : Int) = b := by omega
    have hneg : a.tdiv b = -(-a).tdiv b := by rw [Int.neg_tdiv, Int.neg_neg]
    simp only [ha, hb, habs, hbbs, iff_false, not_true_eq_false, if_false]
    rw [hneg, Int.tdiv_eq_ediv_of_nonneg (by omega)]
  · have habs : (a.natAbs : Int) = a := by omega
    have hbbs : (b.natAbs : Int) = -b := by omega
    simp only [ha, hb, habs, hbbs, iff_true, if_false]
    rw [Int.ediv_neg, Int.neg_neg, Int.tdiv_eq_ediv_of_nonneg (by omega)]
  · have habs : (a.natAbs : Int) = a := by omega
    have hbbs : (b.natAbs : Int) = b := by omega
    simp only [ha, hb, habs, hbbs, if_true]
    rw [Int.tdiv_eq_ediv_of_nonneg (by omega)]

/-- A quotient that does not give the dividend back has lost a remainder. -/
theorem divideByMagnitudes_eq (a b : Int) : divideByMagnitudes a b = divide a b := by
  have hsum := Int.tdiv_mul_add_tmod a b
  have hback : a.tdiv b * b = a ↔ a.tmod b = 0 := by omega
  rw [divideByMagnitudes, divide, quotientOfMagnitudes_eq]
  split
  · rfl
  · by_cases hrem : a.tmod b = 0
    · simp [hback, hrem]
    · simp [hback, hrem]

/--
**Division truncates toward zero and warns exactly on a lost remainder.** It faults with a
zero divisor, silently. Otherwise there is one truncated quotient and one remainder, there
is a warning exactly if the remainder is not zero, also if the call fails then, and the
quotient is returned, or carried by an overflow if 128 bits with a sign do not hold it. That
is what dividing the magnitudes comes to.
-/
theorem divide_truncates (a b : Int) :
    ((divide a b).outcome = .error .divisionByZero ↔ b = 0) ∧
    (b = 0 → (divide a b).warnings = []) ∧
    (b ≠ 0 → ∃ q r, Truncated a b q r ∧ (∀ q' r', Truncated a b q' r' → q' = q ∧ r' = r) ∧
      (divide a b).warnings = (if r = 0 then [] else [.truncatedDivision]) ∧
      (divide a b).outcome =
        (if -2 ^ 127 ≤ q ∧ q ≤ 2 ^ 127 - 1 then .ok q else .error (.overflow q)) ∧
      (Fault.overflow q).message = "integer overflow: " ++ toString q ++ " does not fit in i128") ∧
    divide a b = divideByMagnitudes a b := by
  refine ⟨⟨fun h => ?_, fun hb => ?_⟩, fun hb => ?_, fun hb => ?_, ?_⟩
  · by_contra hb
    rw [divide_of_ne_zero hb] at h
    simp only at h
    split at h <;> cases h
  · rw [hb, divide_zero]
  · rw [hb, divide_zero]
  · have htruncated := truncated_tdiv (a := a) hb
    refine ⟨_, _, htruncated, fun q' r' => htruncated.unique, ?_, ?_, rfl⟩
    · rw [divide_of_ne_zero hb]
    · rw [divide_of_ne_zero hb]
      simp only [Expr.inRange_iff]
  · exact (divideByMagnitudes_eq a b).symm

/-- A remainder is warned about also if the quotient does not fit. -/
example : divide (-(2 ^ 129 + 1)) 2 = ⟨[.truncatedDivision], .error (.overflow (-2 ^ 128))⟩ := by
  rfl

end Integer

end LineCalc
