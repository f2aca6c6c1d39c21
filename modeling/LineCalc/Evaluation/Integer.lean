import LineCalc.Evaluation.Arithmetic

/-!
# Signed 128-bit integers

Results are computed exactly and then checked: what 128 bits with a sign cannot
hold is an overflow that carries the exact result. Literals are taken as they are.
Division drops the fraction and warns when there was one; the warning comes before
the check.
-/

namespace LineCalc.Integer

/-- The greatest integer of the type: 127 binary digits, all one. -/
def highest : Int := (1 <<< 127 : Nat) - 1

/-- The least integer of the type, one further from zero than the greatest. -/
def lowest : Int := -highest - 1

/-- Whether 128 bits with a sign hold an integer. -/
def InRange (v : Int) : Prop := lowest ≤ v ∧ v ≤ highest

instance (v : Int) : Decidable (InRange v) := inferInstanceAs (Decidable (_ ∧ _))

/-- An exact result, if it is in range. -/
def checked (v : Int) : Run Int := if InRange v then pure v else throw (.overflow v)

/-- The quotient without its fraction, with a warning if there was one. -/
def divide (a b : Int) : Run Int :=
  if b = 0 then throw .divisionByZero
  else if a.tmod b = 0 then checked (a.tdiv b)
  else do
    Run.warn .truncatedDivision
    checked (a.tdiv b)

/-- The arithmetic of signed 128-bit integers. -/
def arithmetic : Arithmetic Run Int where
  literal v := pure v
  add a b := checked (a + b)
  subtract a b := checked (a - b)
  multiply a b := checked (a * b)
  divide := divide
  negate a := checked (-a)

end LineCalc.Integer
