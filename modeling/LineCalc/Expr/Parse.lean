import LineCalc.Expr.Basic

/-!
# From tokens to expressions

The grammar, from the loosest binding to the tightest:

* `expr` is a `term`, then any number of `+` or `-` each followed by a `term`;
* `term` is a `factor`, then any number of `*` or `/` each followed by a `factor`;
* `factor` is a number, a `-` before a `factor`, or an `expr` in parentheses.

Operators of one level associate to the left. Each rule reads as much as it can
from the front of a token list and returns the tree with the tokens it left over;
these are fewer than it was given, which is why reading ends. Nobody looks further
than the next token.

A rule that cannot go on says what it missed and which tokens it stood in front
of. `Expr.parse` turns that into a position.
-/

namespace LineCalc

/-- Why a rule of the grammar stopped, in front of which tokens. -/
inductive Refusal where
  /-- An operand was expected. -/
  | operand (rest : List Token)
  /-- A closing parenthesis was expected. -/
  | closing (rest : List Token)
  /-- A number token carries no value. -/
  | valueless
  /-- A number token carries a value that no literal can have. -/
  | invalid (cause : InvalidNode)
deriving DecidableEq, Repr

/-- Why a token list is not an expression. -/
inductive ParseError where
  /-- Something other than an operand, or nothing, stands where one is needed. -/
  | expectedOperand (pos : Nat) (found : Option Token)
  /-- Something other than a closing parenthesis, or nothing, stands where one is needed. -/
  | expectedClosing (pos : Nat) (found : Option Token)
  /-- An expression ends and tokens are left over. -/
  | leftover (pos : Nat)
  /-- A number token carries no value. -/
  | valueless
  /-- A number token carries a value that no literal can have. -/
  | invalidNumber (cause : InvalidNode)
deriving DecidableEq, Repr

namespace ParseError

/-- The index of the token at which the list became hopeless, for errors of the grammar. -/
def pos? : ParseError → Option Nat
  | expectedOperand p _ | expectedClosing p _ | leftover p => some p
  | valueless | invalidNumber _ => none

/-- A token that was found, or the lack of one. -/
def foundText : Option Token → String
  | some t => t.text
  | none => "nothing"

/-- The error as it is told to the user. -/
def message : ParseError → String
  | expectedOperand _ found => s!"Expect number, got {foundText found}"
  | expectedClosing _ found => s!"Expect ), got {foundText found}"
  | leftover _ => "Invalid expression"
  | valueless => ""
  | invalidNumber cause => cause.complaint.message

end ParseError

/-- The error that a refusal is in a list of so many tokens. -/
def Refusal.locate (total : Nat) : Refusal → ParseError
  | operand rest => .expectedOperand (total - rest.length) rest.head?
  | closing rest => .expectedClosing (total - rest.length) rest.head?
  | valueless => .valueless
  | invalid cause => .invalidNumber cause

namespace Grammar

/-- A tree that was read, and the tokens left over, fewer than a bound. -/
structure Parsed (bound : Nat) where
  tree : Expr
  rest : List Token
  fewer : rest.length < bound

/-- The node of a number token. -/
def literal (t : Token) : Except Refusal Expr :=
  match t.value with
  | none => .error .valueless
  | some v => (Expr.ofLiteral v).mapError .invalid

mutual

/-- A sum of terms. -/
def expr (ts : List Token) : Except Refusal (Parsed ts.length) :=
  match term ts with
  | .error e => .error e
  | .ok first =>
    have := first.fewer
    match exprTail first.tree first.rest with
    | .error e => .error e
    | .ok sum => .ok ⟨sum.tree, sum.rest, by have := sum.fewer; omega⟩
termination_by (ts.length, 2)

/-- The terms added to or subtracted from a first one. -/
def exprTail (left : Expr) (ts : List Token) : Except Refusal (Parsed (ts.length + 1)) :=
  match ts with
  | [] => .ok ⟨left, [], by simp⟩
  | t :: rest =>
    match BinaryOp.additive? t.kind with
    | none => .ok ⟨left, t :: rest, by simp⟩
    | some op =>
      match term rest with
      | .error e => .error e
      | .ok right =>
        have := right.fewer
        match exprTail (.binary op left right.tree) right.rest with
        | .error e => .error e
        | .ok sum => .ok ⟨sum.tree, sum.rest, by have := sum.fewer; simp; omega⟩
termination_by (ts.length, 0)

/-- A product of factors. -/
def term (ts : List Token) : Except Refusal (Parsed ts.length) :=
  match factor ts with
  | .error e => .error e
  | .ok first =>
    have := first.fewer
    match termTail first.tree first.rest with
    | .error e => .error e
    | .ok product => .ok ⟨product.tree, product.rest, by have := product.fewer; omega⟩
termination_by (ts.length, 1)

/-- The factors a first one is multiplied with or divided by. -/
def termTail (left : Expr) (ts : List Token) : Except Refusal (Parsed (ts.length + 1)) :=
  match ts with
  | [] => .ok ⟨left, [], by simp⟩
  | t :: rest =>
    match BinaryOp.multiplicative? t.kind with
    | none => .ok ⟨left, t :: rest, by simp⟩
    | some op =>
      match factor rest with
      | .error e => .error e
      | .ok right =>
        have := right.fewer
        match termTail (.binary op left right.tree) right.rest with
        | .error e => .error e
        | .ok product => .ok ⟨product.tree, product.rest, by have := product.fewer; simp; omega⟩
termination_by (ts.length, 0)

/-- A number, a negated factor, or an expression in parentheses. -/
def factor (ts : List Token) : Except Refusal (Parsed ts.length) :=
  match ts with
  | [] => .error (.operand [])
  | t :: rest =>
    match t.kind with
    | .number =>
      match literal t with
      | .error e => .error e
      | .ok tree => .ok ⟨tree, rest, by simp⟩
    | .minus =>
      match factor rest with
      | .error e => .error e
      | .ok operand =>
        .ok ⟨.negate operand.tree, operand.rest, by have := operand.fewer; simp; omega⟩
    | .leftParen =>
      match expr rest with
      | .error e => .error e
      | .ok ⟨inner, [], _⟩ => .error (.closing [])
      | .ok ⟨inner, close :: after, h⟩ =>
        if close.kind = .rightParen then
          .ok ⟨.paren inner, after, by simp at h ⊢; omega⟩
        else .error (.closing (close :: after))
    | _ => .error (.operand (t :: rest))
termination_by (ts.length, 0)

end

end Grammar

/-- The expression that a token list is, every token used. -/
def Expr.parse (ts : List Token) : Except ParseError Expr :=
  match Grammar.expr ts with
  | .error refusal => .error (refusal.locate ts.length)
  | .ok ⟨tree, [], _⟩ => .ok tree
  | .ok ⟨_, t :: rest, _⟩ => .error (.leftover (ts.length - (t :: rest).length))

end LineCalc
