import LineCalc.Token.Basic

/-!
# How deep a token list nests

`Token.nestingDepth` bounds, before any tree is built, how deeply the grammar's
rules call each other on a token list: every open parenthesis and every unary
minus still waiting for its operand is one level, so `(-(-1))` is 4 deep and
`1-2-3` is 0. The list need not be an expression.

The count is kept while the list is read once: the unary minuses waiting now, and
for each open parenthesis those that were waiting when it opened.
-/

namespace LineCalc

/-- What the count remembers after some tokens. -/
structure Nesting where
  /-- The minuses that waited when each open parenthesis opened, innermost first. -/
  held : List Nat := []
  /-- The sum of `held`. -/
  heldTotal : Nat := 0
  /-- The minuses waiting since the last number or parenthesis. -/
  pending : Nat := 0
  /-- The kind of the last token. -/
  last : Option TokenKind := none
  /-- The deepest level so far. -/
  depth : Nat := 0
deriving DecidableEq, Repr

namespace Nesting

/-- Whether a minus after such a token, or after none, is a unary one. -/
def awaitsOperand : Option TokenKind → Bool
  | none => true
  | some .plus | some .minus | some .star | some .slash | some .leftParen => true
  | some .rightParen | some .number => false

/-- The level that is reached now. -/
def level (n : Nesting) : Nat := n.held.length + n.heldTotal + n.pending

/-- What a token opens, closes or starts to wait for. -/
def shift (n : Nesting) (k : TokenKind) : Nesting :=
  match k with
  | .minus => if awaitsOperand n.last then { n with pending := n.pending + 1 } else n
  | .leftParen =>
    { n with held := n.pending :: n.held, heldTotal := n.heldTotal + n.pending, pending := 0 }
  | .rightParen =>
    match n.held with
    | [] => { n with pending := 0 }
    | h :: held => { n with held, heldTotal := n.heldTotal - h, pending := 0 }
  | .number => { n with pending := 0 }
  | .plus | .star | .slash => n

/-- The count after one more token. -/
def step (n : Nesting) (k : TokenKind) : Nesting :=
  let m := n.shift k
  { m with last := some k, depth := max n.depth m.level }

end Nesting

/-- How deep a token list nests. -/
def Token.nestingDepth (ts : List Token) : Nat :=
  ((ts.map Token.kind).foldl Nesting.step {}).depth

end LineCalc
