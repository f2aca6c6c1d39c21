import LineCalc.Decimal.Basic

/-!
# How numbers are written

Results are written positionally, whatever their size: `Double.text` never uses
an exponent and drops a fraction of zero. Log lines use `Double.logText`, where
numbers below `10 ^ -4` or from `10 ^ 16` on take an exponent and whole numbers
keep a fraction of zero.
-/

namespace LineCalc

namespace Decimal

/-- So many zeros. -/
def zeros (n : Nat) : List Char := List.replicate n '0'

/-- The digits of a decimal, most significant first. -/
def digitChars (d : Decimal) : List Char := Nat.toDigits 10 d.digits

/-- The digits in front of the point; there is always one. -/
def wholeChars (d : Decimal) : List Char :=
  let places := (-d.exponent).toNat
  let cs := d.digitChars ++ zeros d.exponent.toNat
  if places < cs.length then cs.take (cs.length - places) else ['0']

/-- The digits after the point, up to the last one that is not zero. -/
def fractionChars (d : Decimal) : List Char :=
  let places := (-d.exponent).toNat
  let cs := zeros (places - d.digitChars.length) ++ d.digitChars
  ((cs.drop (cs.length - places)).reverse.dropWhile (· == '0')).reverse

/-- A decimal without exponent, and without a point unless digits follow it. -/
def positional (d : Decimal) : List Char :=
  match d.fractionChars with
  | [] => d.wholeChars
  | fraction => d.wholeChars ++ '.' :: fraction

/-- The power of ten of the first digit. -/
def magnitude (d : Decimal) : Int := d.digitChars.length - 1 + d.exponent

/-- A decimal with its first digit in front of the point, and the power of ten it is scaled by. -/
def scientific (d : Decimal) : List Char :=
  let power := Nat.toDigits 10 d.magnitude.natAbs
  let mark := ['e', if d.magnitude < 0 then '-' else '+']
  let tail := match d.digitChars with
    | first :: [] => [first]
    | first :: rest => first :: '.' :: rest
    | [] => []
  tail ++ mark ++ zeros (2 - power.length) ++ power

/-- A decimal as log lines show it. -/
def logged (d : Decimal) : List Char :=
  if d.magnitude < -4 ∨ 16 ≤ d.magnitude then d.scientific
  else if d.fractionChars = [] then d.positional ++ ['.', '0']
  else d.positional

end Decimal

namespace Double

/-- A sign in front of a number. -/
def signChars (negative : Bool) : List Char := if negative then ['-'] else []

/-- A double as a result: the shortest digits that read back, never with an exponent. -/
def text : Double → String
  | nan => "NaN"
  | infinity negative => String.ofList (signChars negative ++ ['i', 'n', 'f'])
  | finite negative n _ =>
    String.ofList (signChars negative ++ (Decimal.shortest n).positional)

/-- A double as log lines show it. -/
def logText : Double → String
  | nan => "nan"
  | infinity negative => String.ofList (signChars negative ++ ['i', 'n', 'f'])
  | finite negative n _ =>
    String.ofList (signChars negative ++ (Decimal.shortest n).logged)

end Double

end LineCalc
