import LineCalc.Token.Basic

/-!
# Expressions

The tree of a line of arithmetic. Parentheses are nodes of their own, so that a
tree says how it was written and not only what it means.

A tree of type `Expr` is sound by construction: its numbers fit in 64 bits and
its operators are the four of the language. `Expr.ofLiteral` and `Expr.ofOperator`
are the doors to it for values that may be neither. `RawExpr` is a tree whose
labels nobody has checked, and `Expr.toRaw` says that every expression is one.

What a check has against a value is reported as a `Complaint`: the path to the value,
the sort of fault, and the wording. A check keeps its own type of causes and says only
how a cause reads.
-/

namespace LineCalc

/-- A fault found in one value. -/
structure Complaint where
  path : List String
  sort : String
  message : String
deriving DecidableEq, Repr

/-- The binary operators. -/
inductive BinaryOp where
  | add
  | sub
  | mul
  | div
deriving DecidableEq, Repr

namespace BinaryOp

/-- The operators, in the order in which they are listed to the user. -/
def all : List BinaryOp := [add, sub, mul, div]

/-- The character an operator is written with. -/
def symbol : BinaryOp → Char
  | add => '+'
  | sub => '-'
  | mul => '*'
  | div => '/'

/-- An operator as it reads. -/
def text (op : BinaryOp) : String := op.symbol.toString

/-- The operator that a text is. -/
def ofText? (s : String) : Option BinaryOp := all.find? (·.text == s)

/-- The kind of token an operator is read from. -/
def kind : BinaryOp → TokenKind
  | add => .plus
  | sub => .minus
  | mul => .star
  | div => .slash

/-- The operator of a sum that a token stands for. -/
def additive? : TokenKind → Option BinaryOp
  | .plus => some add
  | .minus => some sub
  | _ => none

/-- The operator of a product that a token stands for. -/
def multiplicative? : TokenKind → Option BinaryOp
  | .star => some mul
  | .slash => some div
  | _ => none

theorem ofText?_text (op : BinaryOp) : ofText? op.text = some op := by
  cases op <;> decide

end BinaryOp

/-- An expression: literals below `2 ^ 64`, unary minus, parentheses, and the binary operators. -/
inductive Expr where
  | number (value : UInt64)
  | negate (operand : Expr)
  | paren (inner : Expr)
  | binary (op : BinaryOp) (left right : Expr)
deriving DecidableEq, Repr

/-- Why a node cannot be part of an expression. -/
inductive InvalidNode where
  /-- A literal that is negative or needs more than 64 bits. -/
  | literal (value : Int)
  /-- An operator that the language does not have. -/
  | operator
deriving DecidableEq, Repr

/-- How an invalid node is reported. -/
def InvalidNode.complaint : InvalidNode → Complaint
  | literal v => ⟨["value"], "value_error", s!"Value error, Literal {v} does not fit in 64 bits"⟩
  | operator => ⟨["op"], "enum", "Input should be '+', '-', '*' or '/'"⟩

namespace Expr

/-- A number node, if the number fits in 64 bits. -/
def ofLiteral (v : Int) : Except InvalidNode Expr :=
  if 0 ≤ v ∧ v < UInt64.size then .ok (.number (UInt64.ofNat v.toNat)) else .error (.literal v)

/-- A binary node, if the text is one of the operators. -/
def ofOperator (op : String) (left right : Expr) : Except InvalidNode Expr :=
  match BinaryOp.ofText? op with
  | some op => .ok (.binary op left right)
  | none => .error .operator

/-- An expression as it reads: operators between single spaces, and nothing added. -/
def render : Expr → String
  | number v => toString v.toNat
  | negate e => "-" ++ e.render
  | paren e => "(" ++ e.render ++ ")"
  | binary op l r => l.render ++ " " ++ op.text ++ " " ++ r.render

/-- The shape of an expression, every node in parentheses with its operator first. -/
def shape : Expr → String
  | number v => toString v.toNat
  | negate e => "(neg " ++ e.shape ++ ")"
  | paren e => "(paren " ++ e.shape ++ ")"
  | binary op l r => "(" ++ op.text ++ " " ++ l.shape ++ " " ++ r.shape ++ ")"

end Expr

/-! ## Trees that nobody has checked -/

/-- A tree with any number as literal, any text as operator, and foreign nodes of a given name. -/
inductive RawExpr where
  | number (value : Int)
  | negate (operand : RawExpr)
  | paren (inner : RawExpr)
  | binary (op : String) (left right : RawExpr)
  | foreign (name : String)
deriving DecidableEq, Repr

/-- An expression, with what is known about it forgotten. -/
def Expr.toRaw : Expr → RawExpr
  | number v => .number v.toNat
  | negate e => .negate e.toRaw
  | paren e => .paren e.toRaw
  | binary op l r => .binary op.text l.toRaw r.toRaw

end LineCalc
