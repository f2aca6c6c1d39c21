import Mathlib
import LineCalc.Evaluation.Trace

/-!
# In which order an evaluation calls its arithmetic

The nodes of a tree that need a call, in post-order, are a list of `Step`s. Parentheses
are not among them. Evaluating the tree is going through that list once, from left to
right, with the values that still wait for their operation on a stack. The first step
that raises something is the last one that is taken. Nothing of the tree is left in the
list, so what is called, with which arguments and in which order is a matter of the list
alone (`follow_steps`).

The arithmetic may be anything. A `Responder` says what a call comes to in view of all
calls before it, so it may return, remark and raise as it likes, and remember what it was
asked. What it raises is of a type of its own, apart from the faults of the tree, which
are operators and nodes that nobody knows. The arithmetics that only give warnings and
faults are responders that do not look back (`evaluate_eq_consult`).
-/

namespace LineCalc

variable {ω ε α β γ : Type}

/-- What a call comes to: remarks on the way, and a value or what it raises. -/
structure Answer (ω ε α : Type) where
  remarks : ω
  outcome : Except ε α

structure Answered (ω ε α : Type) where
  call : Call α
  answer : Answer ω ε α

/-- A call that came to a value. -/
def Answered.Returned (r : Answered ω ε α) : Prop := ∃ a, r.answer.outcome = .ok a

/-- What answers calls, each in view of all the calls before it. -/
def Responder (ω ε α : Type) : Type := List (Answered ω ε α) → Call α → Answer ω ε α

/-- A computation that calls a responder. It ends in what a call raised, a fault, or a value. -/
abbrev Consultation (ω ε α : Type) : Type → Type :=
  ExceptT Fault (ExceptT ε (StateM (List (Answered ω ε α))))

/-- What a computation comes to behind the calls that were made before it. -/
def Consultation.behind (past : List (Answered ω ε α)) (x : Consultation ω ε α β) :
    Except ε (Except Fault β) × List (Answered ω ε α) :=
  x.run.run.run past

namespace Responder

/-- Makes a call, has it answered, and keeps both. -/
def call (p : Responder ω ε α) (c : Call α) : Consultation ω ε α α := do
  let past ← get
  set (past ++ [⟨c, p past c⟩])
  ExceptT.lift (liftExcept (p past c).outcome)

/-- The arithmetic whose every call is answered by a responder. -/
def arithmetic (p : Responder ω ε α) : Arithmetic (Consultation ω ε α) α where
  literal v := p.call (.literal v)
  add a b := p.call (.binary .add a b)
  subtract a b := p.call (.binary .sub a b)
  multiply a b := p.call (.binary .mul a b)
  divide a b := p.call (.binary .div a b)
  negate a := p.call (.negate a)

end Responder

/-- What a tree comes to if its calls are answered by a responder, and all its calls. -/
def RawExpr.consult (p : Responder ω ε α) (e : RawExpr) :
    Except ε (Except Fault α) × List (Answered ω ε α) :=
  (e.evaluate p.arithmetic).behind []

/-! ## The steps of a tree -/

/-- What is to be done at a node. -/
inductive Step where
  | literal (value : Int)
  | negate
  | operator (op : String)
  | foreign (name : String)
deriving DecidableEq, Repr

def Call.step : Call α → Step
  | literal v => .literal v
  | binary op _ _ => .operator op.text
  | negate _ => .negate

namespace Step

/-- The fault that a step is, whatever waits on the stack. -/
def fault? : Step → Option Fault
  | operator op => if BinaryOp.ofText? op = none then some (.unknownOperator op) else none
  | foreign name => some (.unknownNode name)
  | _ => none

/--
What becomes of a step if these values wait, the last of them first: its call with the
values that go on waiting, or its fault. With too few values it cannot be taken.
-/
def due : Step → List α → Option (Except Fault (Call α × List α))
  | literal v, stack => some (.ok (.literal v, stack))
  | negate, a :: stack => some (.ok (.negate a, stack))
  | operator op, b :: a :: stack =>
    match BinaryOp.ofText? op with
    | some known => some (.ok (.binary known a b, stack))
    | none => some (.error (.unknownOperator op))
  | foreign name, _ => some (.error (.unknownNode name))
  | _, _ => none

end Step

namespace RawExpr

/-- The steps of a tree in post-order, operands from left to right. -/
def steps : RawExpr → List Step
  | number v => [.literal v]
  | negate e => e.steps ++ [.negate]
  | paren e => e.steps
  | binary op l r => l.steps ++ (r.steps ++ [.operator op])
  | foreign name => [.foreign name]

/-- A tree with all parentheses taken away. -/
def withoutParens : RawExpr → RawExpr
  | number v => .number v
  | negate e => .negate e.withoutParens
  | paren e => e.withoutParens
  | binary op l r => .binary op l.withoutParens r.withoutParens
  | foreign name => .foreign name

/-- Parentheses are no steps. -/
theorem steps_withoutParens (e : RawExpr) : e.withoutParens.steps = e.steps := by
  induction e with
  | number v => rfl
  | negate e ih => rw [withoutParens, steps, steps, ih]
  | paren e ih => rw [withoutParens, steps, ih]
  | binary op l r ihl ihr => rw [withoutParens, steps, steps, ihl, ihr]
  | foreign name => rfl

end RawExpr

/-- Takes steps one after the other until one of them faults or its call raises something. -/
def Responder.follow (p : Responder ω ε α) : List Step → List α → List (Answered ω ε α) →
    Option (Except ε (Except Fault (List α)) × List (Answered ω ε α))
  | [], stack, past => some (.ok (.ok stack), past)
  | s :: steps, stack, past =>
    match s.due stack with
    | none => none
    | some (.error f) => some (.ok (.error f), past)
    | some (.ok (c, below)) =>
      match (p past c).outcome with
      | .error x => some (.error x, past ++ [⟨c, p past c⟩])
      | .ok a => p.follow steps (a :: below) (past ++ [⟨c, p past c⟩])

/-! ## A tree is its steps -/

/-- A computation goes on behind another with the calls that this one has made. -/
theorem behind_bind (past : List (Answered ω ε α)) (x : Consultation ω ε α β)
    (g : β → Consultation ω ε α γ) :
    (x >>= g).behind past =
      match x.behind past with
      | (.error x, log) => (.error x, log)
      | (.ok (.error f), log) => (.ok (.error f), log)
      | (.ok (.ok b), log) => (g b).behind log := by
  simp only [Consultation.behind, ExceptT.run_bind, StateT.run_bind]
  cases x.run.run.run past with
  | mk out log =>
      cases out with
      | error x => rfl
      | ok out => cases out <;> rfl

/-- A call is answered from all the calls before it, and is written down with its answer. -/
theorem behind_call (p : Responder ω ε α) (past : List (Answered ω ε α)) (c : Call α) :
    (p.call c).behind past = ((p past c).outcome.map .ok, past ++ [⟨c, p past c⟩]) := by
  change Consultation.behind (past ++ [⟨c, p past c⟩])
    (ExceptT.lift (liftExcept (p past c).outcome)) = _
  cases (p past c).outcome <;> rfl

namespace Responder

variable (p : Responder ω ε α)

theorem arithmetic_apply (op : BinaryOp) (a b : α) :
    p.arithmetic.apply op a b = p.call (.binary op a b) := by
  cases op <;> rfl

/-- Goes on with the steps that are left, if what was done before them came to a value. -/
def proceed (steps : List Step) (stack : List α) :
    Except ε (Except Fault α) × List (Answered ω ε α) →
      Option (Except ε (Except Fault (List α)) × List (Answered ω ε α))
  | (.error x, log) => some (.error x, log)
  | (.ok (.error f), log) => some (.ok (.error f), log)
  | (.ok (.ok a), log) => p.follow steps (a :: stack) log

/-- A step that is due makes its call, and what waits below goes on waiting. -/
theorem follow_of_due {s : Step} {c : Call α} {stack below : List α}
    (h : s.due stack = some (.ok (c, below))) (steps : List Step) (past : List (Answered ω ε α)) :
    p.follow (s :: steps) stack past = p.proceed steps below ((p.call c).behind past) := by
  rw [follow, h, behind_call]
  simp only
  cases (p past c).outcome <;> rfl

/-- A step that is a fault makes no call. -/
theorem follow_of_fault {s : Step} {f : Fault} {stack : List α}
    (h : s.due stack = some (.error f)) (steps : List Step) (past : List (Answered ω ε α)) :
    p.follow (s :: steps) stack past = some (.ok (.error f), past) := by
  rw [follow, h]

/-- Steps behind a computation may do what comes after it in one computation. -/
theorem proceed_bind {x : Consultation ω ε α α} {g : α → Consultation ω ε α α}
    {steps rest : List Step} {stack below : List α} (past : List (Answered ω ε α))
    (h : ∀ a log, p.follow steps (a :: stack) log = p.proceed rest below ((g a).behind log)) :
    p.proceed steps stack (x.behind past) = p.proceed rest below ((x >>= g).behind past) := by
  rw [behind_bind]
  cases x.behind past with
  | mk out log =>
      cases out with
      | error x => rfl
      | ok out =>
          cases out with
          | error f => rfl
          | ok a => exact h a log

/-- **The steps of a tree do what its evaluation does**, and the steps behind them follow. -/
theorem follow_steps (e : RawExpr) : ∀ (rest : List Step) (stack : List α)
    (past : List (Answered ω ε α)), p.follow (e.steps ++ rest) stack past =
      p.proceed rest stack ((e.evaluate p.arithmetic).behind past) := by
  induction e with
  | number v =>
      intro rest stack past
      exact p.follow_of_due rfl rest past
  | negate e ih =>
      intro rest stack past
      rw [RawExpr.steps, List.append_assoc, ih, RawExpr.evaluate]
      refine p.proceed_bind past fun a log => ?_
      have hdue : Step.negate.due (a :: stack) = some (.ok (.negate a, stack)) := rfl
      exact p.follow_of_due hdue rest log
  | paren e ih =>
      intro rest stack past
      rw [RawExpr.steps, ih, RawExpr.evaluate]
  | binary op l r ihl ihr =>
      intro rest stack past
      rw [RawExpr.steps, List.append_assoc, List.append_assoc, ihl, RawExpr.evaluate]
      refine p.proceed_bind past fun a log => ?_
      rw [ihr]
      refine p.proceed_bind log fun b log => ?_
      -- both operands are on the stack, and only now the operator is looked at
      cases hop : BinaryOp.ofText? op with
      | none => exact p.follow_of_fault (by simp only [Step.due, hop]) rest log
      | some known =>
          simp only [arithmetic_apply]
          exact p.follow_of_due (by simp only [Step.due, hop]) rest log
  | foreign name =>
      intro rest stack past
      exact p.follow_of_fault rfl rest past

theorem map_injective {f : β → γ} (hf : f.Injective) :
    (Except.map f : Except ε β → Except ε γ).Injective := by
  rintro (x | b) (x' | b') h
  · simpa [Except.map] using h
  · cases h
  · cases h
  · exact congrArg Except.ok (hf (Except.ok.inj h))

/-- A whole tree leaves its value alone on the stack. -/
theorem follow_eq_consult (e : RawExpr) :
    p.follow e.steps [] [] = some ((e.consult p).1.map (·.map ([·])), (e.consult p).2) := by
  have hfollow := p.follow_steps e [] [] []
  rw [List.append_nil] at hfollow
  rw [hfollow, RawExpr.consult]
  cases (e.evaluate p.arithmetic).behind [] with
  | mk out log =>
      cases out with
      | error x => rfl
      | ok out => cases out <;> rfl

/-- Trees with the same steps are consulted in the same way. -/
theorem consult_congr {e e' : RawExpr} (h : e.steps = e'.steps) : e.consult p = e'.consult p := by
  have hfollow := p.follow_eq_consult e
  rw [h, p.follow_eq_consult e', Option.some.injEq, Prod.mk.injEq] at hfollow
  obtain ⟨hout, hcalls⟩ := hfollow
  exact Prod.ext (map_injective (map_injective List.singleton_injective) hout.symm) hcalls.symm

end Responder

/-! ## What following steps writes down -/

theorem step_of_due {s : Step} {c : Call α} {stack below : List α}
    (h : s.due stack = some (.ok (c, below))) : c.step = s := by
  unfold Step.due at h
  split at h
  · cases h; rfl
  · cases h; rfl
  · next op b a below' =>
    split at h
    · next known hop =>
      cases h
      have htext : known.text = op := by simpa using List.find?_some hop
      rw [Call.step, htext]
    · cases h
  · cases h
  · cases h

theorem fault?_of_due {s : Step} {f : Fault} {stack : List α} (h : s.due stack = some (.error f)) :
    s.fault? = some f := by
  unfold Step.due at h
  split at h
  · cases h
  · cases h
  · split at h
    · cases h
    · next hop => cases h; simp [Step.fault?, hop]
  · cases h; rfl
  · cases h

/--
How far steps were taken: a call for each of them in order, up to the last one, or up to
one that is a fault, or up to and with the call that raised something.
-/
inductive Reached : List Step → List (Answered ω ε α) →
    Except ε (Except Fault (List α)) → Prop where
  | finished {values : List α} : Reached [] [] (.ok (.ok values))
  | fault {s : Step} {steps : List Step} {f : Fault} :
      s.fault? = some f → Reached (s :: steps) [] (.ok (.error f))
  | raised {r : Answered ω ε α} {steps : List Step} {x : ε} :
      r.answer.outcome = .error x → Reached (r.call.step :: steps) [r] (.error x)
  | returned {r : Answered ω ε α} {steps : List Step} {calls : List (Answered ω ε α)}
      {out : Except ε (Except Fault (List α))} :
      r.Returned → Reached steps calls out → Reached (r.call.step :: steps) (r :: calls) out

/-- Whoever follows steps adds to what was written down the calls of the steps that were reached. -/
theorem reached_of_follow (p : Responder ω ε α) {steps : List Step} : ∀ {stack : List α}
    {past log : List (Answered ω ε α)} {out : Except ε (Except Fault (List α))},
    p.follow steps stack past = some (out, log) →
      ∃ calls, log = past ++ calls ∧ Reached steps calls out := by
  -- the stack says which call a step makes, and its values are forgotten here
  induction steps with
  | nil =>
      intro stack past log out h
      cases h
      exact ⟨[], (List.append_nil past).symm, .finished⟩
  | cons s steps ih =>
      intro stack past log out h
      rw [Responder.follow] at h
      split at h
      · cases h
      · next f hdue =>
        cases h
        exact ⟨[], (List.append_nil past).symm, .fault (fault?_of_due hdue)⟩
      · next c below hdue =>
        obtain rfl := step_of_due hdue
        split at h
        · next x hx =>
          cases h
          exact ⟨[⟨c, p past c⟩], rfl, .raised (r := ⟨c, p past c⟩) hx⟩
        · next a ha =>
          obtain ⟨calls, rfl, hreached⟩ := ih h
          exact ⟨⟨c, p past c⟩ :: calls, by simp, .returned (r := ⟨c, p past c⟩) ⟨a, ha⟩ hreached⟩

namespace Reached

variable {steps : List Step} {calls : List (Answered ω ε α)}
  {out : Except ε (Except Fault (List α))}

/-- The calls are those of the first steps, in the same order. -/
theorem map_step (h : Reached steps calls out) :
    calls.map (·.call.step) = steps.take calls.length := by
  induction h with
  | finished => rfl
  | fault _ => rfl
  | raised _ => rfl
  | returned _ _ ih => rw [List.map_cons, ih, List.length_cons, List.take_succ_cons]

/-- With a value at the end, all steps were taken and all calls returned. -/
theorem of_value (h : Reached steps calls out) : ∀ values, out = .ok (.ok values) →
    calls.length = steps.length ∧ ∀ r ∈ calls, r.Returned := by
  induction h with
  | finished => simp
  | fault _ => simp
  | raised _ => simp
  | returned hr _ ih =>
      intro values hout
      obtain ⟨hlength, hall⟩ := ih values hout
      exact ⟨by simp [hlength], List.forall_mem_cons.mpr ⟨hr, hall⟩⟩

/-- With a fault at the end, the step behind the last call is that fault. -/
theorem of_fault (h : Reached steps calls out) : ∀ f, out = .ok (.error f) →
    (∀ r ∈ calls, r.Returned) ∧ ∃ s, steps[calls.length]? = some s ∧ s.fault? = some f := by
  induction h with
  | finished => simp
  | @fault s steps f hf =>
      intro f' hout
      cases hout
      exact ⟨by simp, s, rfl, hf⟩
  | raised _ => simp
  | returned hr _ ih =>
      intro f hout
      obtain ⟨hall, s, hs, hf⟩ := ih f hout
      exact ⟨List.forall_mem_cons.mpr ⟨hr, hall⟩, s, by simpa using hs, hf⟩

/-- What a call raised ends everything: that call is the last. -/
theorem of_raised (h : Reached steps calls out) : ∀ x, out = .error x →
    ∃ earlier last, calls = earlier ++ [last] ∧ (∀ r ∈ earlier, r.Returned) ∧
      last.answer.outcome = .error x := by
  induction h with
  | finished => simp
  | fault _ => simp
  | @raised r steps x hx =>
      intro x' hout
      cases hout
      exact ⟨[], r, rfl, by simp, hx⟩
  | @returned r steps calls out hr _ ih =>
      intro x hout
      obtain ⟨earlier, last, rfl, hall, hlast⟩ := ih x hout
      exact ⟨r :: earlier, last, rfl, List.forall_mem_cons.mpr ⟨hr, hall⟩, hlast⟩

end Reached

/-! ## Arithmetics without memory -/

def Arithmetic.respond (ops : Arithmetic Run α) : Call α → Run α
  | .literal v => ops.literal v
  | .binary op a b => ops.apply op a b
  | .negate a => ops.negate a

/-- An arithmetic without memory, as a responder. -/
def Responder.ofArithmetic (ops : Arithmetic Run α) : Responder (List Warning) Fault α :=
  fun _ c => ⟨(ops.respond c).warnings, (ops.respond c).outcome⟩

def Answered.record (r : Answered (List Warning) Fault α) : CallRecord α :=
  ⟨r.call, ⟨r.answer.remarks, r.answer.outcome⟩⟩

theorem Traced.run_bind (t : Traced α β) (g : β → Traced α γ) (past : List (CallRecord α)) :
    (t >>= g).run.run past =
      match t.run.run past with
      | (.error f, log) => (.error f, log)
      | (.ok b, log) => (g b).run.run log := by
  simp only [ExceptT.run_bind, StateT.run_bind]
  rcases t.run.run past with ⟨_ | b, log⟩ <;> rfl

/-- One computation in three ways: as a run, as a trace of calls, and with a responder asked. -/
def Agree (x : Run β) (t : Traced α β) (g : Consultation (List Warning) Fault α β) : Prop :=
  ∃ (out : Except Fault (Except Fault β)) (calls : List (Answered (List Warning) Fault α)),
    x = ⟨calls.flatMap (·.answer.remarks), out.bind id⟩ ∧
      (∀ past, t.run.run past = (out.bind id, past ++ calls.map Answered.record)) ∧
      ∀ past, g.behind past = (out, past ++ calls)

namespace Agree

theorem throw (f : Fault) : Agree (throw f : Run β) (throw f : Traced α β) (throw f) :=
  ⟨.ok (.error f), [], rfl, fun past => by rw [List.map_nil, List.append_nil]; rfl,
    fun past => by rw [List.append_nil]; rfl⟩

theorem call (ops : Arithmetic Run α) (c : Call α) :
    Agree (ops.respond c) (Traced.record c (ops.respond c))
      ((Responder.ofArithmetic ops).call c) := by
  refine ⟨(ops.respond c).outcome.map .ok, [⟨c, Responder.ofArithmetic ops [] c⟩], ?_, ?_, ?_⟩
  · rw [Responder.ofArithmetic]
    rcases ops.respond c with ⟨ws, _ | a⟩ <;> simp [Except.map, Except.bind]
  · intro past
    change (liftExcept (ops.respond c).outcome : Traced α α).run.run
      (past ++ [⟨c, ops.respond c⟩]) = _
    rw [Responder.ofArithmetic, List.map_singleton, Answered.record]
    rcases ops.respond c with ⟨ws, _ | a⟩ <;> rfl
  · intro past
    exact behind_call _ past c

/-- What agrees step by step agrees as a whole. -/
theorem bind {x : Run β} {t : Traced α β} {g : Consultation (List Warning) Fault α β}
    {x' : β → Run γ} {t' : β → Traced α γ} {g' : β → Consultation (List Warning) Fault α γ}
    (h : Agree x t g) (h' : ∀ b, Agree (x' b) (t' b) (g' b)) :
    Agree (x >>= x') (t >>= t') (g >>= g') := by
  obtain ⟨out, calls, rfl, ht, hg⟩ := h
  -- behind an exception or a fault nothing more is done, in any of the three ways
  rcases out with f | f | b
  · refine ⟨.error f, calls, rfl, fun past => ?_, fun past => ?_⟩
    · rw [Traced.run_bind, ht]
      rfl
    · rw [behind_bind, hg]
  · refine ⟨.ok (.error f), calls, rfl, fun past => ?_, fun past => ?_⟩
    · rw [Traced.run_bind, ht]
      rfl
    · rw [behind_bind, hg]
  · obtain ⟨out, later, hx, ht', hg'⟩ := h' b
    refine ⟨out, calls ++ later, ?_, fun past => ?_, fun past => ?_⟩
    · rw [List.flatMap_append]
      change Run.mk _ (x' b).outcome = _
      rw [hx]
    · rw [Traced.run_bind, ht]
      change (t' b).run.run _ = _
      rw [ht', List.map_append, List.append_assoc]
    · rw [behind_bind, hg]
      simp only
      rw [hg', List.append_assoc]

end Agree

theorem agree_evaluate (ops : Arithmetic Run α) (e : RawExpr) :
    Agree (e.evaluate ops) (e.evaluate ops.traced)
      (e.evaluate (Responder.ofArithmetic ops).arithmetic) := by
  induction e with
  | number v => exact .call ops (.literal v)
  | negate e ih => exact .bind ih fun a => .call ops (.negate a)
  | paren e ih => exact ih
  | binary op l r ihl ihr =>
      refine .bind ihl fun a => .bind ihr fun b => ?_
      -- an operator that nobody knows is thrown by all three, after both operands
      cases BinaryOp.ofText? op with
      | none => exact .throw (.unknownOperator op)
      | some known =>
          cases known with
          | add => exact .call ops (.binary .add a b)
          | sub => exact .call ops (.binary .sub a b)
          | mul => exact .call ops (.binary .mul a b)
          | div => exact .call ops (.binary .div a b)
  | foreign name => exact .throw (.unknownNode name)

/-- An evaluation without memory warns what its calls warn, and its trace is what it asked. -/
theorem evaluate_eq_consult (ops : Arithmetic Run α) (e : RawExpr) :
    let (out, calls) := e.consult (.ofArithmetic ops)
    e.evaluate ops = ⟨calls.flatMap (·.answer.remarks), out.bind id⟩ ∧
      e.trace ops = (out.bind id, calls.map Answered.record) := by
  obtain ⟨out, calls, hrun, htrace, hconsult⟩ := agree_evaluate ops e
  rw [RawExpr.consult, hconsult, RawExpr.trace, htrace, hrun]
  simp

/--
**A tree calls its arithmetic in post-order, whatever the arithmetic does.** What it comes
to and the calls it makes are those of its steps, taken one after the other. There is a
call for each step in order. Either all of them came to a value, or the next step is an
operator or a node that nobody knows, or the last call raised what the evaluation ends
in. Taking away all parentheses changes nothing. The last part says this of the
arithmetics without memory, whose evaluations are runs: the calls are those of the
trace, and the warnings are those of the calls.
-/
theorem consult_postorder (p : Responder ω ε α) (e : RawExpr) :
    let (out, calls) := e.consult p
    p.follow e.steps [] [] = some (out.map (·.map ([·])), calls) ∧
      calls.map (·.call.step) = e.steps.take calls.length ∧
      (∀ v, out = .ok (.ok v) → calls.length = e.steps.length ∧ ∀ r ∈ calls, r.Returned) ∧
      (∀ f, out = .ok (.error f) → (∀ r ∈ calls, r.Returned) ∧
        ∃ s, e.steps[calls.length]? = some s ∧ s.fault? = some f) ∧
      (∀ x, out = .error x → ∃ earlier last, calls = earlier ++ [last] ∧
        (∀ r ∈ earlier, r.Returned) ∧ last.answer.outcome = .error x) ∧
      e.withoutParens.consult p = e.consult p ∧
      ∀ ops : Arithmetic Run α,
        let (out, calls) := e.consult (.ofArithmetic ops)
        e.evaluate ops = ⟨calls.flatMap (·.answer.remarks), out.bind id⟩ ∧
          e.trace ops = (out.bind id, calls.map Answered.record) := by
  have hfollow := p.follow_eq_consult e
  have hparens := p.consult_congr e.steps_withoutParens
  generalize e.consult p = done at *
  obtain ⟨out, calls⟩ := done
  obtain ⟨_, rfl, hreached⟩ := reached_of_follow p hfollow
  refine ⟨hfollow, hreached.map_step, fun v hv => hreached.of_value [v] ?_,
    fun f hf => hreached.of_fault f ?_, fun x hx => hreached.of_raised x ?_, hparens,
    (evaluate_eq_consult · e)⟩
  · rw [hv]
    rfl
  · rw [hf]
    rfl
  · rw [hx]
    rfl

/-- The gap is met before the operator that nobody knows, and after the call for the one. -/
example :
    (RawExpr.binary "%" (.number 1) (.foreign "Gap")).consult
        (fun _ _ => ⟨(), .ok 0⟩ : Responder Unit String Int) =
      (.ok (.error (.unknownNode "Gap")), [⟨.literal 1, ⟨(), .ok 0⟩⟩]) := by
  rfl

end LineCalc
