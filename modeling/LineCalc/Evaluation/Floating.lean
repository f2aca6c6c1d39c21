import LineCalc.Double.Basic
import LineCalc.Evaluation.Arithmetic

/-!
# Doubles as an arithmetic

Nothing warns here and no operation faults: a quotient by zero is an infinity or
not a number. Only a literal beyond the finite doubles has no meaning, and none
below `2 ^ 64` is.
-/

namespace LineCalc.Floating

/-- The double nearest to a literal. -/
def literal (v : Int) : Run Double :=
  match Double.ofInt v with
  | .infinity _ => throw .literalTooLarge
  | x => pure x

/-- The arithmetic of doubles. -/
def arithmetic : Arithmetic Run Double where
  literal := literal
  add x y := pure (x + y)
  subtract x y := pure (x - y)
  multiply x y := pure (x * y)
  divide x y := pure (x / y)
  negate x := pure (-x)

end LineCalc.Floating
