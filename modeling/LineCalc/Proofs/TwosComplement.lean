import LineCalc.Proofs.CallOrder
import LineCalc.Proofs.Truncation

/-!
# Integer operations and the words of a machine

An integer in range is a word of 128 bits, read with a sign. An operation on words wraps
around where the exact result does not fit, and overflows there. The operations of
`Integer.arithmetic` compute exactly and look at the range afterwards. That is the same thing
twice: in range, the wrapped result is read as the exact one, and out of range is where the
operation on words overflows (`Checks.wraps`).

No operation returns anything out of range, and literals are far below the end of it. What
waits for an operation while a tree is evaluated is therefore in range all along, and so are
the arguments of every call (`arguments_of_follow`). The induction goes along the steps of the
tree, with the values that wait on a stack.
-/

namespace LineCalc

/-! ## Words -/

namespace BinaryOp

/-- The operation on words, which wraps around. -/
def onWords : BinaryOp → BitVec 128 → BitVec 128 → BitVec 128
  | add, x, y => x + y
  | sub, x, y => x - y
  | mul, x, y => x * y
  | div, x, y => x.sdiv y

/-- Whether the operation on words overflows, these being read with a sign. -/
def overflowsOn : BinaryOp → BitVec 128 → BitVec 128 → Bool
  | add => BitVec.saddOverflow
  | sub => BitVec.ssubOverflow
  | mul => BitVec.smulOverflow
  | div => BitVec.sdivOverflow

end BinaryOp

namespace Integer

variable {a b c : Int} {run : Run Int} {overflows : Bool} {wrapped : BitVec 128}

def word (v : Int) : BitVec 128 := BitVec.ofInt 128 v

/-- A run that comes to an exact result in range, or carries one that is not in a fault. -/
def Checks (run : Run Int) (exact : Int) : Prop :=
  run.outcome = if InRange exact then .ok exact else .error (.overflow exact)

/-- A run that comes to a wrapped result, or carries the exact one if there was an overflow. -/
def Wraps (run : Run Int) (overflows : Bool) (wrapped : BitVec 128) (exact : Int) : Prop :=
  run.outcome = if overflows then .error (.overflow exact) else .ok wrapped.toInt

theorem bmod_of_inRange (h : InRange a) : a.bmod (2 ^ 128) = a := by
  rw [Expr.inRange_iff] at h
  exact Int.bmod_eq_of_le_mul_two (by omega) (by omega)

theorem toInt_word (h : InRange a) : (word a).toInt = a := by
  rw [word, BitVec.toInt_ofInt, bmod_of_inRange h]

theorem word_eq_iff (h : InRange a) {w : BitVec 128} : word a = w ↔ a = w.toInt := by
  rw [← BitVec.toInt_inj, toInt_word h]

/-- **Checking the range of an exact result is looking for an overflow of the wrapped one.** -/
theorem Checks.wraps (h : Checks run c) (hwrapped : wrapped.toInt = c.bmod (2 ^ 128))
    (hoverflows : overflows = true ↔ ¬ InRange c) : Wraps run overflows wrapped c := by
  rw [Wraps, h]
  by_cases hc : InRange c
  · have hno : overflows = false := by
      rw [← Bool.not_eq_true, hoverflows]
      exact not_not_intro hc
    rw [if_pos hc, hno, hwrapped, bmod_of_inRange hc]
    rfl
  · rw [if_neg hc, hoverflows.mpr hc]
    rfl

theorem checks_checked (v : Int) : Checks (checked v) v := congrArg Run.outcome (checked_eq v)

theorem checks_divide (hb : b ≠ 0) : Checks (divide a b) (a.tdiv b) :=
  congrArg Run.outcome (divide_of_ne_zero hb)

theorem Checks.inRange (h : Checks run c) {v : Int} (hv : run.outcome = .ok v) : InRange v := by
  rw [Checks, hv] at h
  split at h
  · next hc => exact Except.ok.inj h ▸ hc
  · cases h

theorem beyond_iff (v : Int) :
    (decide (v ≥ 2 ^ (128 - 1)) || decide (v < -2 ^ (128 - 1))) = true ↔ ¬ InRange v := by
  rw [Expr.inRange_iff, Bool.or_eq_true, decide_eq_true_iff, decide_eq_true_iff]
  omega

/-! ## The operations on words -/

/-- The only quotient out of range is that of the least integer by minus one. -/
theorem not_inRange_tdiv_iff (ha : InRange a) (hb : b ≠ 0) :
    ¬ InRange (a.tdiv b) ↔ a = -2 ^ 127 ∧ b = -1 := by
  by_cases hminus : b = -1
  · rw [hminus, Int.tdiv_neg, Int.tdiv_one]
    rw [Expr.inRange_iff] at ha ⊢
    omega
  · refine iff_of_false (not_not_intro ?_) fun h => hminus h.2
    by_cases hone : b = 1
    · rw [hone, Int.tdiv_one]
      exact ha
    · exact Expr.inRange_tdiv_of_two_le ha (by omega)

theorem sdivOverflow_word (ha : InRange a) (hb : InRange b) :
    (word a).sdivOverflow (word b) = true ↔ a = -2 ^ 127 ∧ b = -1 := by
  have hmin : (BitVec.intMin 128).toInt = -2 ^ 127 := by decide
  have hones : (BitVec.allOnes 128).toInt = -1 := by decide
  rw [BitVec.sdivOverflow_eq, Bool.and_eq_true, Bool.and_eq_true, decide_eq_true_iff,
    decide_eq_true_iff, decide_eq_true_iff, word_eq_iff ha, word_eq_iff hb, hmin, hones]
  simp

theorem negOverflow_word (ha : InRange a) : (word a).negOverflow = true ↔ a = -2 ^ 127 := by
  rw [BitVec.negOverflow, toInt_word ha, beq_iff_eq]

/-- Each operation with two operands, by its exact result, wraps as the word operation does. -/
theorem apply_wraps (ha : InRange a) (hb : InRange b) {op : BinaryOp}
    (hc : op.exactResult? a b = some c) :
    Wraps (arithmetic.apply op a b) (op.overflowsOn (word a) (word b))
      (op.onWords (word a) (word b)) c := by
  cases op with
  | add =>
      obtain rfl := Option.some.inj hc
      refine (checks_checked _).wraps ?_ ?_
      · rw [BinaryOp.onWords, BitVec.toInt_add, toInt_word ha, toInt_word hb]
      · rw [BinaryOp.overflowsOn, BitVec.saddOverflow, toInt_word ha, toInt_word hb, beyond_iff]
  | sub =>
      obtain rfl := Option.some.inj hc
      refine (checks_checked _).wraps ?_ ?_
      · rw [BinaryOp.onWords, BitVec.toInt_sub, toInt_word ha, toInt_word hb]
      · rw [BinaryOp.overflowsOn, BitVec.ssubOverflow, toInt_word ha, toInt_word hb, beyond_iff]
  | mul =>
      obtain rfl := Option.some.inj hc
      refine (checks_checked _).wraps ?_ ?_
      · rw [BinaryOp.onWords, BitVec.toInt_mul, toInt_word ha, toInt_word hb]
      · rw [BinaryOp.overflowsOn, BitVec.smulOverflow, toInt_word ha, toInt_word hb, beyond_iff]
  | div =>
      rw [BinaryOp.exactResult?] at hc
      split at hc
      · cases hc
      · next hzero =>
        obtain rfl := Option.some.inj hc
        refine (checks_divide hzero).wraps ?_ ?_
        · rw [BinaryOp.onWords, BitVec.toInt_sdiv, toInt_word ha, toInt_word hb]
        · rw [BinaryOp.overflowsOn, sdivOverflow_word ha hb, not_inRange_tdiv_iff ha hzero]

theorem negate_wraps (ha : InRange a) :
    Wraps (arithmetic.negate a) (word a).negOverflow (-word a) (-a) := by
  refine (checks_checked _).wraps ?_ ?_
  · rw [BitVec.toInt_neg, toInt_word ha]
  · rw [negOverflow_word ha]
    rw [Expr.inRange_iff] at ha ⊢
    omega

end Integer

/-! ## What the calls of an evaluation are given -/

/-- The numbers that a call is given, a literal among them. -/
def Call.arguments : Call Int → List Int
  | literal v => [v]
  | binary _ a b => [a, b]
  | negate a => [a]

section

variable {ω ε : Type} {P : Int → Prop}

/-- A call takes its arguments from the step itself or from the stack, and leaves the others. -/
theorem arguments_of_due {s : Step} {c : Call Int} {stack below : List Int}
    (h : s.due stack = some (.ok (c, below))) (hs : ∀ v, s = .literal v → P v)
    (hstack : ∀ v ∈ stack, P v) : (∀ v ∈ c.arguments, P v) ∧ ∀ v ∈ below, P v := by
  unfold Step.due at h
  split at h
  · next v =>
    cases h
    exact ⟨by simpa [Call.arguments] using hs v rfl, hstack⟩
  · next a stack =>
    cases h
    obtain ⟨ha, hbelow⟩ := List.forall_mem_cons.mp hstack
    exact ⟨by simpa [Call.arguments] using ha, hbelow⟩
  · next op b a stack =>
    split at h
    · cases h
      obtain ⟨hb, hrest⟩ := List.forall_mem_cons.mp hstack
      obtain ⟨ha, hbelow⟩ := List.forall_mem_cons.mp hrest
      exact ⟨by simpa [Call.arguments] using ⟨ha, hb⟩, hbelow⟩
    · cases h
  · cases h
  · cases h

/-- **What every call hands on, all calls are given.** -/
theorem arguments_of_follow (p : Responder ω ε Int)
    (hp : ∀ past c v, (∀ a ∈ c.arguments, P a) → (p past c).outcome = .ok v → P v)
    {steps : List Step} : (∀ v, Step.literal v ∈ steps → P v) →
      ∀ {stack : List Int} {past log : List (Answered ω ε Int)}
        {out : Except ε (Except Fault (List Int))},
        (∀ v ∈ stack, P v) → (∀ r ∈ past, ∀ v ∈ r.call.arguments, P v) →
          p.follow steps stack past = some (out, log) → ∀ r ∈ log, ∀ v ∈ r.call.arguments, P v := by
  induction steps with
  | nil =>
      intro _ stack past log out _ hpast h
      cases h
      exact hpast
  | cons s steps ih =>
      intro hliterals stack past log out hstack hpast h
      rw [Responder.follow] at h
      split at h
      · cases h
      · cases h
        exact hpast
      · next c below hdue =>
        have hs : ∀ v, s = .literal v → P v := fun v hv => hliterals v (hv ▸ List.mem_cons_self)
        obtain ⟨hc, hbelow⟩ := arguments_of_due hdue hs hstack
        have hlog : ∀ r ∈ past ++ [⟨c, p past c⟩], ∀ v ∈ r.call.arguments, P v :=
          List.forall_mem_append.mpr ⟨hpast, by simpa using hc⟩
        split at h
        · cases h
          exact hlog
        · next v hv =>
          have hvalue := hp past c v hc hv
          exact ih (fun w hw => hliterals w (List.mem_cons_of_mem s hw))
            (List.forall_mem_cons.mpr ⟨hvalue, hbelow⟩) hlog h

end

namespace Integer

/-- A call that is given numbers in range hands on a number in range. -/
theorem inRange_of_respond {call : Call Int} {v : Int} (hcall : ∀ a ∈ call.arguments, InRange a)
    (h : (arithmetic.respond call).outcome = .ok v) : InRange v := by
  cases call with
  | literal w =>
      obtain rfl : w = v := Except.ok.inj h
      exact hcall w List.mem_cons_self
  | negate a => exact (checks_checked _).inRange h
  | binary op a b =>
      cases op with
      | add => exact (checks_checked _).inRange h
      | sub => exact (checks_checked _).inRange h
      | mul => exact (checks_checked _).inRange h
      | div =>
          by_cases hb : b = 0
          · subst hb
            cases h
          · exact (checks_divide hb).inRange h

theorem inRange_of_trace {e : RawExpr}
    (hliterals : ∀ v, Step.literal v ∈ e.steps → 0 ≤ v ∧ v < 2 ^ 64) :
    ∀ r ∈ (e.trace arithmetic).2, ∀ v ∈ r.call.arguments, InRange v := by
  have hrange : ∀ v, Step.literal v ∈ e.steps → InRange v := by
    intro v hv
    have hlt := hliterals v hv
    rw [Expr.inRange_iff]
    omega
  have hfollow := (Responder.ofArithmetic arithmetic).follow_eq_consult e
  have htrace := (evaluate_eq_consult arithmetic e).2
  have hcalls := arguments_of_follow _ (fun past c v hc hv => inRange_of_respond hc hv) hrange
    (List.forall_mem_nil _) (List.forall_mem_nil _) hfollow
  rw [htrace]
  intro r hr
  obtain ⟨r', hr', rfl⟩ := List.mem_map.mp hr
  exact hcalls r' hr'

theorem Wraps.overflow_iff {exact : Int} (h : Wraps run overflows wrapped exact) :
    (∃ v, run.outcome = .error (.overflow v)) ↔ overflows = true := by
  rw [Wraps] at h
  cases overflows with
  | true => exact iff_of_true ⟨exact, h⟩ rfl
  | false =>
      refine iff_of_false ?_ Bool.false_ne_true
      rintro ⟨v, hv⟩
      cases h.symm.trans hv

theorem divide_overflow_iff (ha : InRange a) (hb : InRange b) :
    (∃ v, (arithmetic.divide a b).outcome = .error (.overflow v)) ↔ a = -2 ^ 127 ∧ b = -1 := by
  by_cases hzero : b = 0
  · subst hzero
    exact iff_of_false nofun (by omega)
  · have hexact : BinaryOp.div.exactResult? a b = some (a.tdiv b) := if_neg hzero
    exact (apply_wraps ha hb hexact).overflow_iff.trans (sdivOverflow_word ha hb)

/--
**Integer operations are checked arithmetic on words of 128 bits.** On integers in range,
each operation that has an exact result comes to the wrapped result of the operation on
their words if that does not overflow, and to a fault with the exact result if it does. A
negation overflows on the least integer only, and a division only on that by minus one. What
a call returns is in range if its arguments are, and so all arguments of all calls of an
evaluation are in range if its literals are below `2 ^ 64`.
-/
theorem arithmetic_wraps {a b : Int} (ha : InRange a) (hb : InRange b) :
    ((word a).toInt = a ∧ (word b).toInt = b) ∧
    (∀ op c, op.exactResult? a b = some c →
      Wraps (arithmetic.apply op a b) (op.overflowsOn (word a) (word b))
        (op.onWords (word a) (word b)) c) ∧
    Wraps (arithmetic.negate a) (word a).negOverflow (-word a) (-a) ∧
    ((∃ v, (arithmetic.negate a).outcome = .error (.overflow v)) ↔ a = -2 ^ 127) ∧
    ((∃ v, (arithmetic.divide a b).outcome = .error (.overflow v)) ↔ a = -2 ^ 127 ∧ b = -1) ∧
    (∀ call : Call Int, (∀ v ∈ call.arguments, InRange v) →
      ∀ v, (arithmetic.respond call).outcome = .ok v → InRange v) ∧
    ∀ e : RawExpr, (∀ v, Step.literal v ∈ e.steps → 0 ≤ v ∧ v < 2 ^ 64) →
      ∀ r ∈ (e.trace arithmetic).2, ∀ v ∈ r.call.arguments, InRange v :=
  ⟨⟨toInt_word ha, toInt_word hb⟩, fun _ _ => apply_wraps ha hb, negate_wraps ha,
    (negate_wraps ha).overflow_iff.trans (negOverflow_word ha), divide_overflow_iff ha hb,
    fun _ hcall _ => inRange_of_respond hcall, fun _ => inRange_of_trace⟩

/-- The least integer by minus one, whose wrapped quotient is the least integer again. -/
theorem arithmetic_wraps_lowest :
    InRange (-2 ^ 127) ∧ InRange (-1) ∧
      BinaryOp.div.exactResult? (-2 ^ 127) (-1) = some (2 ^ 127) ∧
      BinaryOp.div.onWords (word (-2 ^ 127)) (word (-1)) = word (-2 ^ 127) ∧
      Wraps (arithmetic.divide (-2 ^ 127) (-1)) true (word (-2 ^ 127)) (2 ^ 127) := by
  have ha : InRange (-2 ^ 127) := by decide
  have hb : InRange (-1) := by decide
  have hexact : BinaryOp.div.exactResult? (-2 ^ 127) (-1) = some (2 ^ 127) := by decide
  have hwrapped : BinaryOp.div.onWords (word (-2 ^ 127)) (word (-1)) = word (-2 ^ 127) := by decide
  have hwraps := (arithmetic_wraps ha hb).2.1 .div (2 ^ 127) hexact
  rw [hwrapped] at hwraps
  exact ⟨ha, hb, hexact, hwrapped, hwraps⟩

end Integer

end LineCalc
