import LineCalc.Evaluation.Arithmetic

/-!
# Tracing an evaluation

Any arithmetic can be made to write down its calls: each with its arguments and
with what it came to, in the order in which they were made. A call that faults is
written down too and is the last one.
-/

namespace LineCalc

/-- A call of one of the operations of an arithmetic. -/
inductive Call (α : Type) where
  | literal (value : Int)
  | binary (op : BinaryOp) (left right : α)
  | negate (operand : α)
deriving Repr

/-- A call and what it came to. -/
structure CallRecord (α : Type) where
  call : Call α
  run : Run α
deriving Repr

/-- A computation that writes down calls, and may end in a fault. -/
abbrev Traced (α : Type) : Type → Type := ExceptT Fault (StateM (List (CallRecord α)))

variable {α : Type}

/-- Writes down a call and goes on with its outcome. -/
def Traced.record (call : Call α) (run : Run α) : Traced α α := do
  modify (· ++ [⟨call, run⟩])
  liftExcept run.outcome

/-- An arithmetic that writes down its calls. -/
def Arithmetic.traced (ops : Arithmetic Run α) : Arithmetic (Traced α) α where
  literal v := .record (.literal v) (ops.literal v)
  add a b := .record (.binary .add a b) (ops.add a b)
  subtract a b := .record (.binary .sub a b) (ops.subtract a b)
  multiply a b := .record (.binary .mul a b) (ops.multiply a b)
  divide a b := .record (.binary .div a b) (ops.divide a b)
  negate a := .record (.negate a) (ops.negate a)

/-- The value of a tree, or the fault that ended its evaluation, and the calls that were made. -/
def RawExpr.trace (ops : Arithmetic Run α) (e : RawExpr) :
    Except Fault α × List (CallRecord α) :=
  (e.evaluate ops.traced).run.run []

end LineCalc
