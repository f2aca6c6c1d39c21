import LineCalc.Calculator
import LineCalc.Proofs.CallOrder
import LineCalc.Proofs.WholeDouble

/-!
# Where the two arithmetics agree

In 128-bit integers every result is exact or a fault, and a division that is not exact warns.
In doubles nothing faults or warns, and a result that is not exact is rounded without a word.
On a tree that comes to an integer without a warning, through literals and results of
magnitude up to `2 ^ 53` only, the two come to the same number.

`Computes` takes a trace apart along its tree: what a tree comes to, and the calls that led
there. The agreement is an induction over it, one call at a time. What is carried along is
that the double equals the integer. That does not tell zeros of different signs apart, and
need not, since the sign of a zero is only seen by a division by it, which is a fault in
integers.
-/

namespace LineCalc

variable {α β γ : Type}

/-! ## What a tree comes to, and by which calls -/

/-- A tree comes to a value, by calls that all came to one. -/
inductive Computes (ops : Arithmetic Run α) : RawExpr → α → List (CallRecord α) → Prop where
  | number {v : Int} {a : α} :
      (ops.literal v).outcome = .ok a →
      Computes ops (.number v) a [⟨.literal v, ops.literal v⟩]
  | negate {e : RawExpr} {a b : α} {calls : List (CallRecord α)} :
      Computes ops e a calls → (ops.negate a).outcome = .ok b →
      Computes ops (.negate e) b (calls ++ [⟨.negate a, ops.negate a⟩])
  | paren {e : RawExpr} {a : α} {calls : List (CallRecord α)} :
      Computes ops e a calls → Computes ops (.paren e) a calls
  | binary {text : String} {op : BinaryOp} {l r : RawExpr} {a b c : α}
      {left right : List (CallRecord α)} :
      BinaryOp.ofText? text = some op → Computes ops l a left → Computes ops r b right →
      (ops.apply op a b).outcome = .ok c →
      Computes ops (.binary text l r) c (left ++ right ++ [⟨.binary op a b, ops.apply op a b⟩])

theorem traced_apply (ops : Arithmetic Run α) (op : BinaryOp) (a b : α) :
    ops.traced.apply op a b = .record (.binary op a b) (ops.apply op a b) := by
  cases op <;> rfl

/-- A call that gives a value is put behind those that were made before. -/
theorem run_record {call : Call α} {run : Run α} {past log : List (CallRecord α)} {a : α}
    (h : (Traced.record call run).run.run past = (.ok a, log)) :
    run.outcome = .ok a ∧ log = past ++ [⟨call, run⟩] := by
  have hrun : (Traced.record call run).run.run past = (run.outcome, past ++ [⟨call, run⟩]) := by
    change (liftExcept run.outcome : Traced α α).run.run (past ++ [⟨call, run⟩]) = _
    cases run.outcome <;> rfl
  rw [hrun] at h
  exact ⟨congrArg Prod.fst h, (congrArg Prod.snd h).symm⟩

theorem run_bind {t : Traced α β} {g : β → Traced α γ} {past log : List (CallRecord α)} {c : γ}
    (h : (t >>= g).run.run past = (.ok c, log)) :
    ∃ b between, t.run.run past = (.ok b, between) ∧ (g b).run.run between = (.ok c, log) := by
  rw [Traced.run_bind] at h
  cases hrun : t.run.run past with
  | mk out between =>
      rw [hrun] at h
      cases out with
      | error f => cases h
      | ok b => exact ⟨b, between, rfl, h⟩

/-- A run that comes to a value adds the calls by which the value is computed. -/
theorem computes_of_run (ops : Arithmetic Run α) (e : RawExpr) :
    ∀ {past log : List (CallRecord α)} {a : α},
      (e.evaluate ops.traced).run.run past = (.ok a, log) →
        ∃ calls, log = past ++ calls ∧ Computes ops e a calls := by
  induction e with
  | number v =>
      intro past log a h
      obtain ⟨ha, hlog⟩ := run_record h
      exact ⟨_, hlog, .number ha⟩
  | negate e ih =>
      intro past log b h
      obtain ⟨a, between, he, hcall⟩ := run_bind h
      obtain ⟨calls, rfl, hcomputes⟩ := ih he
      obtain ⟨hb, rfl⟩ := run_record hcall
      exact ⟨_, List.append_assoc _ _ _, .negate hcomputes hb⟩
  | paren e ih =>
      intro past log a h
      obtain ⟨calls, hlog, hcomputes⟩ := ih h
      exact ⟨calls, hlog, .paren hcomputes⟩
  | binary text l r ihl ihr =>
      intro past log c h
      obtain ⟨a, between, hl, h⟩ := run_bind h
      obtain ⟨b, between', hr, h⟩ := run_bind h
      obtain ⟨left, rfl, hleft⟩ := ihl hl
      obtain ⟨right, rfl, hright⟩ := ihr hr
      -- an operator that nobody knows does not come to a value
      cases hop : BinaryOp.ofText? text with
      | none => rw [hop] at h; cases h
      | some op =>
          simp only [hop, traced_apply] at h
          obtain ⟨hc, rfl⟩ := run_record h
          exact ⟨_, by simp, .binary hop hleft hright hc⟩
  | foreign name => intro past log a h; cases h

theorem computes_of_trace {ops : Arithmetic Run α} {e : RawExpr} {a : α}
    (h : (e.trace ops).1 = .ok a) : Computes ops e a (e.trace ops).2 := by
  have hrun : (e.evaluate ops.traced).run.run [] = (.ok a, (e.trace ops).2) := Prod.ext h rfl
  obtain ⟨calls, hlog, hcomputes⟩ := computes_of_run ops e hrun
  rw [hlog]
  exact hcomputes

/-! ## One call in both arithmetics -/

/-- A call that warned about nothing and came to nothing of magnitude beyond `2 ^ 53`. -/
def CallRecord.Exact (r : CallRecord Int) : Prop :=
  r.run.warnings = [] ∧ ∀ v, r.run.outcome = .ok v → v.natAbs ≤ 2 ^ 53

theorem eq_of_checked {v w : Int} (h : (Integer.checked v).outcome = .ok w) : w = v := by
  unfold Integer.checked at h
  split at h
  · exact (Except.ok.inj h).symm
  · cases h

/-- A division without a warning leaves no remainder. -/
theorem eq_mul_of_divide {a b q : Int} (h : (Integer.divide a b).outcome = .ok q)
    (hwarnings : (Integer.divide a b).warnings = []) : b ≠ 0 ∧ a = q * b := by
  unfold Integer.divide at h hwarnings
  split at h
  · cases h
  · next hb =>
    rw [if_neg hb] at hwarnings
    split at h
    · next hrem =>
      rw [eq_of_checked h]
      exact ⟨hb, (Int.tdiv_mul_cancel (Int.dvd_of_tmod_eq_zero hrem)).symm⟩
    · -- a remainder is lost, and there is a warning
      next hrem =>
      rw [if_neg hrem] at hwarnings
      cases hwarnings

theorem literal_equals {v : Int} (h : v.natAbs ≤ 2 ^ 53) :
    ∃ x, Floating.literal v = (pure x : Run Double) ∧ x.Equals v := by
  obtain ⟨negative, n, hn, hx, hv⟩ := Double.equals_ofInt h
  refine ⟨.finite negative n hn, ?_, negative, n, hn, rfl, hv⟩
  unfold Floating.literal
  rw [hx]

/-- If a call on integers is exact, so is the call on the doubles that equal them. -/
theorem apply_equals {op : BinaryOp} {x y : Double} {a b c : Int} (hx : x.Equals a)
    (hy : y.Equals b) (hc : (Integer.arithmetic.apply op a b).outcome = .ok c)
    (hexact : CallRecord.Exact ⟨.binary op a b, Integer.arithmetic.apply op a b⟩) :
    ∃ z, Floating.arithmetic.apply op x y = (pure z : Run Double) ∧ z.Equals c := by
  have hsmall := hexact.2 c hc
  cases op with
  | add =>
      have hsum := eq_of_checked hc
      rw [hsum] at hsmall ⊢
      exact ⟨x + y, rfl, hx.add hy hsmall⟩
  | sub =>
      have hdifference := eq_of_checked hc
      rw [hdifference] at hsmall ⊢
      exact ⟨x - y, rfl, hx.sub hy hsmall⟩
  | mul =>
      have hproduct := eq_of_checked hc
      rw [hproduct] at hsmall ⊢
      exact ⟨x * y, rfl, hx.mul hy hsmall⟩
  | div =>
      obtain ⟨hb, ha⟩ := eq_mul_of_divide hc hexact.1
      rw [ha] at hx
      exact ⟨x / y, rfl, hx.div hy hb hsmall⟩

/-- **What integers compute exactly, doubles compute too**, call by call. -/
theorem equals_of_computes {e : RawExpr} {v : Int} {calls : List (CallRecord Int)}
    (h : Computes Integer.arithmetic e v calls) (hexact : ∀ r ∈ calls, r.Exact) :
    ∃ x, e.evaluate Floating.arithmetic = (pure x : Run Double) ∧ x.Equals v := by
  induction h with
  | @number v a hv =>
      obtain rfl : v = a := Except.ok.inj hv
      exact literal_equals ((hexact _ List.mem_cons_self).2 v rfl)
  | @negate e a b calls _ hb ih =>
      obtain ⟨x, hx, hequals⟩ := ih fun r hr => hexact r (List.mem_append_left _ hr)
      refine ⟨-x, ?_, ?_⟩
      · rw [RawExpr.evaluate, hx, pure_bind]
        rfl
      · rw [eq_of_checked hb]
        exact hequals.neg
  | paren _ ih => exact ih hexact
  | @binary text op l r a b c left right hop _ _ hc ihl ihr =>
      have hlast := hexact _ (List.mem_append_right _ List.mem_cons_self)
      have hfirst : ∀ r ∈ left ++ right, r.Exact := fun r hr =>
        hexact r (List.mem_append_left _ hr)
      obtain ⟨hleft, hright⟩ := List.forall_mem_append.mp hfirst
      obtain ⟨x, hx, hxa⟩ := ihl hleft
      obtain ⟨y, hy, hyb⟩ := ihr hright
      obtain ⟨z, hz, hzc⟩ := apply_equals hxa hyb hc hlast
      refine ⟨z, ?_, hzc⟩
      rw [RawExpr.evaluate, hx, pure_bind, hy, pure_bind, hop]
      exact hz

/-! ## A whole evaluation -/

/-- An evaluation is its trace with the calls forgotten, up to their warnings. -/
theorem evaluate_eq_trace (ops : Arithmetic Run α) (e : RawExpr) :
    e.evaluate ops = ⟨(e.trace ops).2.flatMap (·.run.warnings), (e.trace ops).1⟩ := by
  have hconsult := evaluate_eq_consult ops e
  generalize e.consult (.ofArithmetic ops) = done at hconsult
  obtain ⟨out, calls⟩ := done
  obtain ⟨hrun, htrace⟩ := hconsult
  rw [hrun, htrace, List.flatMap_map]
  rfl

theorem evaluate_of_evaluateIn {e : RawExpr} {v : Int}
    (h : e.evaluateIn .integer = ⟨[], .ok (.integer v)⟩) :
    e.evaluate Integer.arithmetic = ⟨[], .ok v⟩ := by
  rw [RawExpr.evaluateIn] at h
  generalize e.evaluate Integer.arithmetic = run at h ⊢
  rcases run with ⟨ws, f | a⟩
  · cases congrArg Run.outcome h
  · have hvalue : Value.integer a = .integer v := Except.ok.inj (congrArg Run.outcome h)
    have hwarnings : ws ++ [] = [] := congrArg Run.warnings h
    rw [List.append_nil] at hwarnings
    rw [hwarnings, Value.integer.inj hvalue]

/--
**The two arithmetics agree where integers are exact.** If an expression comes to an integer
without a warning, and if every literal and every result on the way has a magnitude of at
most `2 ^ 53`, it comes to a finite double that is the same number.
-/
theorem evaluateIn_floating_agrees {e : Expr} {v : Int}
    (hvalue : e.evaluateIn .integer = ⟨[], .ok (.integer v)⟩)
    (hsmall : ∀ r ∈ (e.toRaw.trace Integer.arithmetic).2, ∀ w, r.run.outcome = .ok w →
      w.natAbs ≤ 2 ^ 53) :
    ∃ x : Double, e.evaluateIn .floating = ⟨[], .ok (.double x)⟩ ∧ x.Equals v := by
  have hrun := evaluate_of_evaluateIn hvalue
  rw [evaluate_eq_trace] at hrun
  have hwarnings := List.flatMap_eq_nil_iff.mp (congrArg Run.warnings hrun)
  have hcomputes := computes_of_trace (congrArg Run.outcome hrun)
  obtain ⟨x, hx, hequals⟩ := equals_of_computes hcomputes fun r hr =>
    ⟨hwarnings r hr, hsmall r hr⟩
  exact ⟨x, by rw [Expr.evaluateIn, RawExpr.evaluateIn, hx]; rfl, hequals⟩

/-- In `-(2 - 2) * 3 + 8 / -4` a negative zero comes up, and is lost in the sum. -/
theorem evaluateIn_floating_agrees_zero :
    let e : Expr := .binary .add
      (.binary .mul (.negate (.paren (.binary .sub (.number 2) (.number 2)))) (.number 3))
      (.binary .div (.number 8) (.negate (.number 4)))
    e.evaluateIn .integer = ⟨[], .ok (.integer (-2))⟩ ∧
      (∀ r ∈ (e.toRaw.trace Integer.arithmetic).2, ∀ w, r.run.outcome = .ok w →
        w.natAbs ≤ 2 ^ 53) ∧
      ∃ x : Double, e.evaluateIn .floating = ⟨[], .ok (.double x)⟩ ∧ x.Equals (-2) := by
  intro e
  have hvalue : e.evaluateIn .integer = ⟨[], .ok (.integer (-2))⟩ := by rfl
  have hsmall : ∀ r ∈ (e.toRaw.trace Integer.arithmetic).2, ∀ w, r.run.outcome = .ok w →
      w.natAbs ≤ 2 ^ 53 := by
    have htrace : (e.toRaw.trace Integer.arithmetic).2.map (·.run.outcome) =
        [2, 2, 0, 0, 3, 0, 8, 4, -4, -2, -2].map Except.ok := by rfl
    intro r hr w hw
    have hmem := List.mem_map_of_mem (f := (·.run.outcome)) hr
    rw [htrace, hw] at hmem
    simp only [List.map_cons, List.map_nil, List.mem_cons, List.not_mem_nil, Except.ok.injEq,
      or_false] at hmem
    omega
  exact ⟨hvalue, hsmall, evaluateIn_floating_agrees hvalue hsmall⟩

end LineCalc
