import LineCalc.Text.Blank

/-!
# Whole numbers written as texts

A whole number is plainly an optional minus and digits without needless zeros.
Beyond that it may stand between white space, begin with a plus, have zeros in front
(before the minus too), have single underscores between its digits, and end in a
point and zeros. Such extras are dropped only from a text that is not plain, and what
is left then has to be plain.

How long a number may be is limited, and a text that is too long is told apart from
one that is no number.
-/

namespace LineCalc.WholeNumber

/-- Why a text is not read as a whole number. -/
inductive TextError where
  | malformed
  /-- It begins with a number of more than `maxLength` characters. -/
  | tooLong
deriving DecidableEq, Repr

/-- The most characters that a plain number may have, its minus included. -/
def maxLength : Nat := 4300

/-- A minus at the front of a text, if there is one, and what follows. -/
def minus : List Char → Bool × List Char
  | '-' :: rest => (true, rest)
  | cs => (false, cs)

/-- The number that digits without needless zeros spell, as long as they are not too many. -/
def digits (most : Nat) (cs : List Char) : Except TextError Nat :=
  let run := cs.takeWhile Char.isDigit
  if cs = ['0'] then .ok 0
  else if cs.head? = some '0' ∨ run = [] then .error .malformed
  else if most < run.length then .error .tooLong
  else if run.length = cs.length then .ok (Nat.ofDigitChars 10 cs 0)
  else .error .malformed

/-- The number that a plain text is. -/
def plain (cs : List Char) : Except TextError Int :=
  match minus cs with
  | (true, ds) => (digits (maxLength - 1) ds).map fun n => -n
  | (false, ds) => (digits maxLength ds).map fun n => n

/-! ## Extras -/

/--
What follows the zeros and underscores that a text begins with.

The last of them stays in front of a point, and if nothing follows.
-/
def dropZeros : (last : Char) → List Char → Option (List Char)
  | last, [] => some [last]
  | last, c :: rest =>
    if c == '0' || c == '_' then dropZeros c rest
    else if c.isDigit || c == '-' then some (c :: rest)
    else if c == '.' then some (last :: c :: rest)
    else none

/-- Characters without the zeros in front, if they begin with a digit at all. -/
def dropLeading : List Char → Option (List Char)
  | [] => none
  | '0' :: rest => dropZeros '0' rest
  | c :: rest => if c.isDigit then some (c :: rest) else none

/-- Characters without a point and zeros at the end. -/
def dropFraction (cs : List Char) : List Char :=
  match cs.dropWhile (· != '.') with
  | _ :: '0' :: more => if more.all (· == '0') then cs.takeWhile (· != '.') else cs
  | _ => cs

/-- Characters without underscores, if these stand singly between others. -/
def dropUnderscores (cs : List Char) : List Char :=
  let doubled := cs.zip cs.tail |>.any fun p => p.1 == '_' && p.2 == '_'
  if cs.head? == some '_' || cs.getLast? == some '_' || doubled then cs
  else cs.filter (· != '_')

/-- Characters without a plus in front, which no minus may follow. -/
def dropPlus : List Char → Option (List Char)
  | '+' :: '-' :: _ => none
  | '+' :: rest => some rest
  | cs => some cs

/-- A text without its extras. -/
def dropExtras (cs : List Char) : Option (List Char) := do
  let (negative, unsigned) := minus (← dropPlus (Text.trimWith Text.isSpace cs))
  let whole := dropUnderscores (dropFraction (← dropLeading unsigned))
  return if negative then '-' :: whole else whole

/-- The whole number that a text is. -/
def ofText (s : String) : Except TextError Int :=
  match plain s.toList with
  | .error .malformed =>
    match dropExtras s.toList with
    | some cs => plain cs
    | none => .error .malformed
  | result => result

end LineCalc.WholeNumber
