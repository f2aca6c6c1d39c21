import LineCalc.Double.Basic

/-!
# Decimals, and the shortest that reads back

A decimal is a whole number times a power of ten. It reads as the double nearest
to it. `Decimal.shortest` goes the other way: among the decimals that read as a
given double it finds one with the fewest digits and, of those, the nearest.

The search walks over grids, the multiples of one power of ten, from a power
above the number down. On each grid only the two neighbours of the number can
read back if any point can; the first grid on which one does is the coarsest, so
its digits are the fewest. The walk ends at the latest on the grid of `10 ^ -1074`,
where the number itself is a point.
-/

namespace LineCalc

/-- A decimal: a whole number times a power of ten. -/
structure Decimal where
  digits : Nat
  exponent : Int
deriving DecidableEq, Repr

namespace Decimal

/-- A power of ten. -/
def tenPow (n : Nat) : Nat := Nat.pow 10 n

/-- The numerator of a decimal as a fraction. -/
def num (d : Decimal) : Nat := d.digits * tenPow d.exponent.toNat

/-- The denominator of a decimal as a fraction. -/
def den (d : Decimal) : Nat := tenPow (-d.exponent).toNat

/-- The units that a decimal reads as. -/
def units (d : Decimal) : Nat := Double.roundUnits (d.num <<< Double.onePlace) d.den

/-- The double that a decimal with a sign reads as. -/
def toDouble (negative : Bool) (d : Decimal) : Double :=
  Double.ofUnits negative (d.num <<< Double.onePlace) d.den

/--
A point of the grid of a power of ten that reads as so many units, the nearest if there are two.
-/
def onGrid? (n : Nat) (exponent : Int) : Option Decimal :=
  let num := n * tenPow (-exponent).toNat
  let den := tenPow exponent.toNat <<< Double.onePlace
  let floor := num / den
  ([roundDiv num den, floor, floor + 1].map (⟨·, exponent⟩)).find? (·.units == n)

/-- The search over the grids of so many steps above `10 ^ -1074`, from the coarsest down. -/
def search (n : Nat) : (steps : Nat) → Decimal
  | 0 => ⟨n * Nat.pow 5 Double.onePlace, -Double.onePlace⟩
  | steps + 1 =>
    match onGrid? n (steps + 1 - Double.onePlace) with
    | some d => d
    | none => search n steps

/-- The shortest decimal that reads as so many units, and of these the nearest. -/
def shortest (n : Nat) : Decimal :=
  if n = 0 then ⟨0, 0⟩
  else search n (Double.onePlace + (Nat.toDigits 10 (n >>> Double.onePlace)).length)

end Decimal

end LineCalc
