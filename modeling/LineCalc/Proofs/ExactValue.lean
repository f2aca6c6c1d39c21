import Mathlib
import LineCalc.Calculator

/-!
# Integer evaluation and exact arithmetic

Every tree has an exact value over the whole numbers, unless it divides by zero
somewhere. Evaluation in 128 bits goes through the nodes of the tree in post-order,
operands from left to right and then the operation, and the first node whose exact
value is missing or does not fit ends it. Nothing before that node can have gone
wrong, so what the evaluator has in its hands are exact values all along.

The link is `survey`: a walk over a list of nodes that knows nothing but their exact
values, warns at those that drop a remainder and stops at the first that does not fit.
Evaluating a tree is surveying its nodes in post-order and then returning the exact
value of the whole (`evaluate_eq_survey`), warnings and fault included.

A quotient is warned about before it is checked. That the check never fails after a
warning is arithmetic: a remainder is lost only if the divisor is not one or minus one,
and then the quotient of an operand in range is in range.
-/

namespace LineCalc

/-- The exact result of an operation; a quotient loses its fraction and needs a divisor. -/
def BinaryOp.exactResult? : BinaryOp → Int → Int → Option Int
  | add, a, b => some (a + b)
  | sub, a, b => some (a - b)
  | mul, a, b => some (a * b)
  | div, a, b => if b = 0 then none else some (a.tdiv b)

namespace Expr

/-- The exact value of a tree over the whole numbers, if it divides by zero nowhere. -/
def exactValue? : Expr → Option Int
  | number v => some (v.toNat : Int)
  | negate e => e.exactValue?.map (-·)
  | paren e => e.exactValue?
  | binary op l r => l.exactValue?.bind fun a => r.exactValue?.bind fun b => op.exactResult? a b

/-- The nodes of a tree, operands from left to right and every node after its operands. -/
def postorder : Expr → List Expr
  | number v => [number v]
  | negate e => e.postorder ++ [negate e]
  | paren e => e.postorder ++ [paren e]
  | binary op l r => l.postorder ++ (r.postorder ++ [binary op l r])

/-- Whether the exact value of a node exists and 128 bits with a sign hold it. -/
def fits (e : Expr) : Bool :=
  match e.exactValue? with
  | some v => -2 ^ 127 ≤ v && v ≤ 2 ^ 127 - 1
  | none => false

/-- Whether a node is a division whose divisor is exactly zero. -/
def dividesByZero : Expr → Bool
  | binary .div _ r => r.exactValue? == some 0
  | _ => false

def truncates : Expr → Bool
  | binary .div l r =>
    match l.exactValue?, r.exactValue? with
    | some a, some b => b != 0 && a.tmod b != 0
    | _, _ => false
  | _ => false

def fault (e : Expr) : Fault :=
  if e.dividesByZero then .divisionByZero else .overflow (e.exactValue?.getD 0)

/-- What a node adds to a run. -/
def check (e : Expr) : Run Unit :=
  if e.fits then if e.truncates then Run.warn .truncatedDivision else pure ()
  else throw e.fault

def survey : List Expr → Run Unit
  | [] => pure ()
  | e :: es => do
    e.check
    survey es

end Expr

/-! ## Runs -/

namespace Run

variable {α β : Type}

/-- What follows a run only matters for the values that the run can end in. -/
theorem bind_congr_of_ok {x : Run α} {f g : α → Run β}
    (h : ∀ a, x.outcome = .ok a → f a = g a) : x >>= f = x >>= g := by
  rw [bind_eq, bind_eq, andThen, andThen]
  cases hx : x.outcome with
  | error e => rfl
  | ok a => simp only [h a hx]

theorem bind_of_ok {x : Run α} {a : α} (h : x.outcome = .ok a) (f : α → Run β) :
    x >>= f = ⟨x.warnings ++ (f a).warnings, (f a).outcome⟩ := by
  rw [bind_eq, andThen, h]

theorem bind_of_error {x : Run α} {e : Fault} (h : x.outcome = .error e) (f : α → Run β) :
    x >>= f = ⟨x.warnings, .error e⟩ := by
  rw [bind_eq, andThen, h]

end Run

/-! ## What a survey comes to -/

namespace Expr

theorem survey_append (es es' : List Expr) :
    survey (es ++ es') = survey es >>= fun _ => survey es' := by
  induction es with
  | nil => rw [List.nil_append, survey, pure_bind]
  | cons e es ih => rw [List.cons_append, survey, survey, bind_assoc, ih]

theorem survey_singleton (e : Expr) : survey [e] = e.check := by
  rw [survey, survey]
  exact bind_pure e.check

theorem check_of_fits {e : Expr} (h : e.fits = true) :
    e.check = ⟨.replicate ([e].countP truncates) .truncatedDivision, .ok ()⟩ := by
  rw [check, if_pos h]
  cases ht : e.truncates <;> simp [ht, Run.warn, Run.pure_eq]

theorem check_of_not_fits {e : Expr} (h : e.fits = false) : e.check = ⟨[], .error e.fault⟩ := by
  rw [check, h]
  rfl

/-- A survey warns at the nodes before the first one that does not fit, and ends there. -/
theorem survey_eq (es : List Expr) :
    survey es =
      ⟨.replicate ((es.takeWhile fits).countP truncates) .truncatedDivision,
        match es.find? (fun e => !e.fits) with
        | none => .ok ()
        | some e => .error e.fault⟩ := by
  induction es with
  | nil => rfl
  | cons e es ih =>
      rw [survey]
      cases he : e.fits with
      | true =>
          rw [Run.bind_of_ok (a := ()) (by rw [check_of_fits he]), check_of_fits he, ih]
          rw [List.takeWhile_cons_of_pos he, List.find?_cons_of_neg (by simp [he]),
            List.replicate_append_replicate, ← List.countP_append, List.singleton_append]
      | false =>
          rw [Run.bind_of_error (e := e.fault) (by rw [check_of_not_fits he]),
            check_of_not_fits he, List.takeWhile_cons_of_neg (by simp [he]),
            List.find?_cons_of_pos (by simp [he])]
          rfl

theorem fits_of_survey {es : List Expr} {u : Unit} (h : (survey es).outcome = .ok u) :
    ∀ e ∈ es, e.fits = true := by
  rw [survey_eq] at h
  cases hfind : es.find? (fun e => !e.fits) with
  | none => simpa using hfind
  | some e => rw [hfind] at h; cases h

/-! ## Exact values of nodes -/

theorem inRange_iff {v : Int} : Integer.InRange v ↔ -2 ^ 127 ≤ v ∧ v ≤ 2 ^ 127 - 1 := by
  have hlowest : Integer.lowest = -2 ^ 127 := by decide
  have hhighest : Integer.highest = 2 ^ 127 - 1 := by decide
  rw [Integer.InRange, hlowest, hhighest]

theorem fits_iff {e : Expr} :
    e.fits = true ↔ ∃ v, e.exactValue? = some v ∧ Integer.InRange v := by
  unfold fits
  cases e.exactValue? <;> simp [inRange_iff]

theorem self_mem_postorder (e : Expr) : e ∈ e.postorder := by
  cases e <;> simp [postorder]

theorem dividesByZero_of_exactValue? {e : Expr} {v : Int} (hv : e.exactValue? = some v) :
    e.dividesByZero = false := by
  cases e with
  | binary op l r =>
      cases op with
      | div =>
          have hdivisor : r.exactValue? ≠ some 0 := by
            intro hr
            rw [exactValue?, hr] at hv
            cases hl : l.exactValue? <;> rw [hl] at hv <;> cases hv
          simpa [dividesByZero] using hdivisor
      | _ => rfl
  | _ => rfl

/-- A node with an exact value that loses nothing is checked like its value. -/
theorem checked_eq_check {e : Expr} {v : Int} (hv : e.exactValue? = some v)
    (ht : e.truncates = false) :
    Integer.checked v = e.check >>= fun _ => pure (e.exactValue?.getD 0) := by
  by_cases hrange : Integer.InRange v
  · have hfits := fits_iff.mpr ⟨v, hv, hrange⟩
    rw [Integer.checked, if_pos hrange, check, if_pos hfits, ht, hv]
    rfl
  · have hfits : e.fits = false := by
      rw [Bool.eq_false_iff]
      intro h
      obtain ⟨w, hw, hin⟩ := fits_iff.mp h
      rw [hv] at hw
      exact hrange (Option.some.inj hw ▸ hin)
    rw [Integer.checked, if_neg hrange, check_of_not_fits hfits, fault,
      dividesByZero_of_exactValue? hv, hv]
    rfl

/-- A quotient by anything but one and minus one is at most half of the dividend. -/
theorem inRange_tdiv_of_two_le {a b : Int} (ha : Integer.InRange a) (hb : 2 ≤ b.natAbs) :
    Integer.InRange (a.tdiv b) := by
  rw [inRange_iff] at ha ⊢
  have habs : (a.tdiv b).natAbs = a.natAbs / b.natAbs := Int.natAbs_tdiv a b
  have hhalf : a.natAbs / b.natAbs ≤ a.natAbs / 2 := Nat.div_le_div_left hb (by decide)
  omega

/-- A quotient that loses a remainder is in range if the dividend is. -/
theorem inRange_tdiv {a b : Int} (ha : Integer.InRange a) (hr : a.tmod b ≠ 0) :
    Integer.InRange (a.tdiv b) := by
  by_cases hzero : b = 0
  · rw [hzero, Int.tdiv_zero]
    decide
  · have hone : b ≠ 1 := fun h => hr (by rw [h, Int.tmod_one])
    have hminus : b ≠ -1 := fun h => hr (by rw [h, Int.tmod_neg, Int.tmod_one])
    exact inRange_tdiv_of_two_le ha (by omega)

/-- An operation on operands that fit does what the check of its node does. -/
theorem apply_eq_check {op : BinaryOp} {l r : Expr} {a b : Int} (hl : l.exactValue? = some a)
    (hr : r.exactValue? = some b) (ha : Integer.InRange a) :
    Integer.arithmetic.apply op a b =
      (binary op l r).check >>= fun _ => pure ((binary op l r).exactValue?.getD 0) := by
  cases op with
  | add => exact checked_eq_check (by rw [exactValue?, hl, hr]; rfl) rfl
  | sub => exact checked_eq_check (by rw [exactValue?, hl, hr]; rfl) rfl
  | mul => exact checked_eq_check (by rw [exactValue?, hl, hr]; rfl) rfl
  | div =>
      have hexact : (binary .div l r).exactValue? = if b = 0 then none else some (a.tdiv b) := by
        rw [exactValue?, hl, hr]
        rfl
      have htruncates : (binary .div l r).truncates = (b != 0 && a.tmod b != 0) := by
        rw [truncates, hl, hr]
      have hdivide : Integer.arithmetic.apply .div a b = Integer.divide a b := rfl
      rw [hdivide, Integer.divide]
      by_cases hb : b = 0
      · have hfits : (binary .div l r).fits = false := by rw [fits, hexact, if_pos hb]
        have hzero : (binary .div l r).dividesByZero = true := by simp [dividesByZero, hr, hb]
        rw [if_pos hb, check_of_not_fits hfits, fault, hzero]
        rfl
      · rw [if_neg hb] at hexact ⊢
        by_cases hrem : a.tmod b = 0
        · rw [if_pos hrem]
          exact checked_eq_check hexact (by simp [htruncates, hrem])
        · -- the warning comes first, and the check after it cannot fail
          have hrange := inRange_tdiv ha hrem
          have hfits := fits_iff.mpr ⟨_, hexact, hrange⟩
          have hlost : (binary .div l r).truncates = true := by simp [htruncates, hb, hrem]
          rw [if_neg hrem, check, if_pos hfits, hlost, Integer.checked, if_pos hrange, hexact]
          rfl

/-- Behind a survey that ended well stands a tree that fits. -/
theorem exactValue?_of_survey {e : Expr} {u : Unit} (h : (survey e.postorder).outcome = .ok u) :
    ∃ v, e.exactValue? = some v ∧ Integer.InRange v :=
  fits_iff.mp (fits_of_survey h e (self_mem_postorder e))

/--
**Evaluating a tree is surveying its nodes.** The warnings and the fault are those of the
survey, and the value is the exact one.
-/
theorem evaluate_eq_survey (e : Expr) :
    e.toRaw.evaluate Integer.arithmetic =
      survey e.postorder >>= fun _ => pure (e.exactValue?.getD 0) := by
  induction e with
  | number v =>
      have hlt : (v.toNat : Int) < 2 ^ 64 := by exact_mod_cast v.toNat_lt
      have hfits : (number v).fits = true := by
        simp only [fits, exactValue?, Bool.and_eq_true, decide_eq_true_eq]
        omega
      rw [postorder, survey_singleton, check, if_pos hfits]
      rfl
  | negate e ih =>
      rw [toRaw, RawExpr.evaluate, ih, postorder, survey_append, bind_assoc, bind_assoc]
      -- the node is only reached behind operands that fit, so their exact values exist
      refine Run.bind_congr_of_ok fun u hu => ?_
      obtain ⟨v, hv, -⟩ := exactValue?_of_survey hu
      rw [pure_bind, survey_singleton, hv]
      exact checked_eq_check (by rw [exactValue?, hv]; rfl) rfl
  | paren e ih =>
      rw [toRaw, RawExpr.evaluate, ih, postorder, survey_append, bind_assoc]
      refine Run.bind_congr_of_ok fun u hu => ?_
      obtain ⟨v, hv, hrange⟩ := exactValue?_of_survey hu
      -- parentheses check nothing, and there is nothing left to check
      have hfits : (paren e).fits = true := fits_iff.mpr ⟨v, hv, hrange⟩
      rw [survey_singleton, check, if_pos hfits]
      rfl
  | binary op l r ihl ihr =>
      rw [toRaw, RawExpr.evaluate, ihl, ihr, postorder, survey_append, survey_append]
      simp only [bind_assoc, pure_bind, BinaryOp.ofText?_text]
      refine Run.bind_congr_of_ok fun u hu => ?_
      obtain ⟨a, ha, harange⟩ := exactValue?_of_survey hu
      refine Run.bind_congr_of_ok fun u' hu' => ?_
      obtain ⟨b, hb, -⟩ := exactValue?_of_survey hu'
      rw [survey_singleton, ha, hb]
      exact apply_eq_check ha hb harange

/-! ## The first node that does not fit -/

theorem exactValue?_of_find?_eq_none {e : Expr} (h : e.postorder.find? (fun n => !n.fits) = none) :
    ∃ v, e.exactValue? = some v := by
  rw [List.find?_eq_none] at h
  have hfits : e.fits = true := by simpa using h e (self_mem_postorder e)
  obtain ⟨v, hv, -⟩ := fits_iff.mp hfits
  exact ⟨v, hv⟩

/-- The first node that does not fit has an exact value, unless it divides by zero. -/
theorem exactValue?_of_first {e : Expr} : ∀ {n : Expr},
    e.postorder.find? (fun n => !n.fits) = some n → n.dividesByZero = false →
      ∃ v, n.exactValue? = some v := by
  have last {e n : Expr} (h : [e].find? (fun n => !n.fits) = some n) : n = e :=
    (List.mem_singleton.mp (List.mem_of_find?_eq_some h))
  induction e with
  | number v =>
      intro n h _
      rw [last h]
      exact ⟨_, rfl⟩
  | negate e ih =>
      intro n h hn
      rw [postorder, List.find?_append] at h
      rcases Option.or_eq_some_iff.mp h with hfirst | ⟨hnone, hlast⟩
      · exact ih hfirst hn
      · obtain ⟨v, hv⟩ := exactValue?_of_find?_eq_none hnone
        rw [last hlast, exactValue?, hv]
        exact ⟨-v, rfl⟩
  | paren e ih =>
      intro n h hn
      rw [postorder, List.find?_append] at h
      rcases Option.or_eq_some_iff.mp h with hfirst | ⟨hnone, hlast⟩
      · exact ih hfirst hn
      · obtain ⟨v, hv⟩ := exactValue?_of_find?_eq_none hnone
        rw [last hlast, exactValue?, hv]
        exact ⟨v, rfl⟩
  | binary op l r ihl ihr =>
      intro n h hn
      rw [postorder, List.find?_append, List.find?_append] at h
      rcases Option.or_eq_some_iff.mp h with hfirst | ⟨hleft, h⟩
      · exact ihl hfirst hn
      rcases Option.or_eq_some_iff.mp h with hfirst | ⟨hright, hlast⟩
      · exact ihr hfirst hn
      -- both operands fit, so a zero divisor is all that could have gone wrong
      obtain ⟨a, ha⟩ := exactValue?_of_find?_eq_none hleft
      obtain ⟨b, hb⟩ := exactValue?_of_find?_eq_none hright
      obtain rfl := last hlast
      rw [exactValue?, ha, hb]
      cases op with
      | div =>
          have hdivisor : b ≠ 0 := by simpa [dividesByZero, hb] using hn
          exact ⟨a.tdiv b, if_neg hdivisor⟩
      | _ => exact ⟨_, rfl⟩

theorem evaluateIn_integer_eq (e : Expr) :
    e.evaluateIn .integer =
      ⟨.replicate ((e.postorder.takeWhile fits).countP truncates) .truncatedDivision,
        match e.postorder.find? (fun n => !n.fits) with
        | none => .ok (.integer (e.exactValue?.getD 0))
        | some n => .error n.fault⟩ := by
  have hmap (x : Run Int) : Value.integer <$> x = x >>= fun v => pure (Value.integer v) := rfl
  rw [evaluateIn, RawExpr.evaluateIn, hmap, evaluate_eq_survey, survey_eq, bind_assoc]
  cases e.postorder.find? (fun n => !n.fits) with
  | none =>
      rw [Run.bind_of_ok rfl, pure_bind]
      simp only [Run.pure_eq, List.append_nil]
  | some n => rw [Run.bind_of_error rfl]

end Expr

/--
**Integer evaluation agrees with exact arithmetic, faults included.** It returns the exact
value if and only if every node of the tree has one that 128 bits with a sign hold.
Otherwise it faults at the first node in post-order for which this fails, with the exact
value of that node unless its divisor is zero. There is a warning for each division
before that node, or for each division at all, that drops a remainder.
-/
theorem evaluateIn_integer_exact (e : Expr) :
    let run := e.evaluateIn .integer
    (∀ v, run.outcome = .ok (.integer v) ↔
      (∀ n ∈ e.postorder, n.fits = true) ∧ e.exactValue? = some v) ∧
    (∀ n, e.postorder.find? (fun n => !n.fits) = some n →
      (n.dividesByZero = true → run.outcome = .error .divisionByZero) ∧
      (n.dividesByZero = false → ∃ v, n.exactValue? = some v ∧ run.outcome = .error (.overflow v) ∧
        (Fault.overflow v).message = "integer overflow: " ++ toString v ++ " does not fit in i128")) ∧
    run.warnings =
      .replicate ((e.postorder.takeWhile Expr.fits).countP Expr.truncates) .truncatedDivision := by
  intro run
  have hrun : run = _ := Expr.evaluateIn_integer_eq e
  refine ⟨?_, ?_, congrArg Run.warnings hrun⟩
  · intro v
    rw [hrun]
    cases hfind : e.postorder.find? (fun n => !n.fits) with
    | none =>
        obtain ⟨w, hw⟩ := Expr.exactValue?_of_find?_eq_none hfind
        have hall : ∀ n ∈ e.postorder, n.fits = true := by simpa using hfind
        constructor
        · intro h
          obtain rfl : w = v := by simpa [hw] using h
          exact ⟨hall, hw⟩
        · rintro ⟨-, hv⟩
          simp [hv]
    | some n =>
        have hn : n.fits = false := by simpa using List.find?_some hfind
        simp only [reduceCtorEq, false_iff, not_and]
        intro hall
        rw [hall n (List.mem_of_find?_eq_some hfind)] at hn
        cases hn
  · intro n hfind
    have houtcome : run.outcome = .error n.fault := by rw [hrun, hfind]
    refine ⟨?_, ?_⟩
    · intro hzero
      rw [houtcome, Expr.fault, if_pos hzero]
    · intro hzero
      obtain ⟨v, hv⟩ := Expr.exactValue?_of_first hfind hzero
      refine ⟨v, hv, ?_, rfl⟩
      rw [houtcome, Expr.fault, hzero, hv]
      rfl

/-- In `7 / 2 + 1 / 0`, the remainder is lost before the zero divisor is met. -/
example :
    (Expr.binary .add (.binary .div (.number 7) (.number 2))
      (.binary .div (.number 1) (.number 0))).evaluateIn .integer =
        ⟨[.truncatedDivision], .error .divisionByZero⟩ := by
  rfl

end LineCalc
