import LineCalc.Evaluation.Run
import LineCalc.Expr.Basic

/-!
# Evaluating a tree in any arithmetic

An arithmetic is what a tree needs of a number type: a meaning for literals, and
the four operations and negation, each a computation that may do more than return
a value. There is one way to evaluate a tree in an arithmetic: operands from left
to right, then the operation, and parentheses do nothing. An operator is looked
at only after both of its operands, so a fault in an operand comes first.
-/

namespace LineCalc

/-- The operations on numbers `α` as computations in `m`. -/
structure Arithmetic (m : Type → Type) (α : Type) where
  literal : Int → m α
  add : α → α → m α
  subtract : α → α → m α
  multiply : α → α → m α
  divide : α → α → m α
  negate : α → m α

variable {m : Type → Type} {α : Type}

/-- The operation of an operator. -/
def Arithmetic.apply (ops : Arithmetic m α) : BinaryOp → α → α → m α
  | .add => ops.add
  | .sub => ops.subtract
  | .mul => ops.multiply
  | .div => ops.divide

/-- The value of a tree, its operations carried out in post-order. -/
def RawExpr.evaluate [Monad m] [MonadExceptOf Fault m] (ops : Arithmetic m α) : RawExpr → m α
  | .number v => ops.literal v
  | .negate e => e.evaluate ops >>= ops.negate
  | .paren e => e.evaluate ops
  | .binary op l r => do
    let a ← l.evaluate ops
    let b ← r.evaluate ops
    match BinaryOp.ofText? op with
    | some known => ops.apply known a b
    | none => throw (.unknownOperator op)
  | .foreign name => throw (.unknownNode name)

end LineCalc
