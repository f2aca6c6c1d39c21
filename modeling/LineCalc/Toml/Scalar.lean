import LineCalc.Datum
import LineCalc.Toml.Moment
import LineCalc.Toml.Step

/-!
# Texts and numbers of a TOML document

Texts come in four forms: basic ones between double quotes, with escapes; literal
ones between single quotes, without; and both over several lines between triple
quotes. Numbers are integers in four radices and decimal fractions, with
underscores between digits, and there are infinities and a value that is not a
number. A decimal integer is the only one of these whose length is limited. What
begins like a date or a time is one.
-/

namespace LineCalc.Toml

/-! ## Texts -/

/-- A character given by so many hexadecimal digits. -/
def numberedChar? (count : Nat) (s : List Char) : Option (Char × List Char) :=
  if s.length < count then none
  else do
    let ds ← (s.take count).mapM Radix.digitValue?
    let n := Radix.hexadecimal.ofDigits ds
    if n.isValidChar then some (Char.ofNat n, s.drop count) else none

/-- The character that an escape stands for, read after the backslash. -/
def escaped? : List Char → Option (Char × List Char)
  | 'b' :: rest => some ('\x08', rest)
  | 't' :: rest => some ('\t', rest)
  | 'n' :: rest => some ('\n', rest)
  | 'f' :: rest => some ('\x0c', rest)
  | 'r' :: rest => some ('\r', rest)
  | '"' :: rest => some ('"', rest)
  | '\\' :: rest => some ('\\', rest)
  | 'u' :: rest => numberedChar? 4 rest
  | 'U' :: rest => numberedChar? 8 rest
  | _ => none

/-- The rest of a basic text on one line, after characters already read. -/
def basicFrom (read : List Char) (s : List Char) : Option (String × List Char) :=
  match s with
  | [] => none
  | c :: rest =>
    if c == '"' then some (String.ofList read.reverse, rest)
    else if c == '\\' then
      match Step.of? rest (escaped? rest) with
      | none => none
      | some e =>
        have := e.shorter
        basicFrom (e.value :: read) e.rest
    else if isControl c then none
    else basicFrom (c :: read) rest
termination_by s.length

/-- The rest of a literal text on one line. -/
def literalText? (s : List Char) : Option (String × List Char) :=
  let body := s.takeWhile fun c => c != '\'' && !isControl c
  match s.drop body.length with
  | '\'' :: rest => some (String.ofList body, rest)
  | _ => none

/-- Up to two further quotes that belong to a text over several lines, after its end. -/
def extraQuotes (quote : Char) : List Char → List Char × List Char
  | a :: b :: rest =>
    if a == quote then
      if b == quote then ([a, b], rest) else ([a], b :: rest)
    else ([], a :: b :: rest)
  | [a] => if a == quote then ([a], []) else ([], [a])
  | [] => ([], [])

/-- The end of a text over several lines: what was read, and the quotes that still belong to it. -/
def endLong (quote : Char) (read rest : List Char) : String × List Char :=
  let extra := extraQuotes quote rest
  (String.ofList (read.reverse ++ extra.1), extra.2)

/--
What follows a backslash that ends a line: the next character that is neither a
gap nor a line end.
-/
def continued? (s : List Char) : Option (List Char) :=
  match skipGap s with
  | [] => some []
  | '\n' :: rest => some (rest.dropWhile fun c => isGap c || c == '\n')
  | _ => none

/-- What a backslash in a text over several lines stands for: a character, or none at a line end. -/
def longEscaped? (s : List Char) : Option (List Char × List Char) :=
  match s with
  | [] => none
  | c :: _ =>
    if isGap c || c == '\n' then (continued? s).map ([], ·)
    else (escaped? s).map fun (e, rest) => ([e], rest)

/-- The rest of a basic text over several lines, after characters already read. -/
def longBasicFrom (read : List Char) (s : List Char) : Option (String × List Char) :=
  match s with
  | [] => none
  | '"' :: '"' :: '"' :: rest => some (endLong '"' read rest)
  | c :: rest =>
    if c == '\\' then
      match Step.of? rest (longEscaped? rest) with
      | none => none
      | some e =>
        have := e.shorter
        longBasicFrom (e.value ++ read) e.rest
    else if isControl c && c != '\n' then none
    else longBasicFrom (c :: read) rest
termination_by s.length

/-- The rest of a literal text over several lines, after characters already read. -/
def longLiteralFrom (read : List Char) : List Char → Option (String × List Char)
  | '\'' :: '\'' :: '\'' :: rest => some (endLong '\'' read rest)
  | c :: rest =>
    if isControl c && c != '\n' then none else longLiteralFrom (c :: read) rest
  | [] => none

/-- A text over several lines does not begin with the line end after its quotes. -/
def skipFirstLineEnd : List Char → List Char
  | '\n' :: rest => rest
  | s => s

/-- A text in any of the four forms. -/
def text? : List Char → Option (String × List Char)
  | '"' :: '"' :: '"' :: rest => longBasicFrom [] (skipFirstLineEnd rest)
  | '\'' :: '\'' :: '\'' :: rest => longLiteralFrom [] (skipFirstLineEnd rest)
  | '"' :: rest => basicFrom [] rest
  | '\'' :: rest => literalText? rest
  | _ => none

/-! ## Numbers -/

/-- Whether a character is a digit of a radix. -/
def isDigit (r : Radix) (c : Char) : Bool := (r.digit? c).isSome

/-- Digits with single underscores between them: the digits, and what follows. -/
def digitRun (r : Radix) : List Char → List Char × List Char
  | '_' :: c :: rest =>
    if isDigit r c then
      let more := digitRun r rest
      (c :: more.1, more.2)
    else ([], '_' :: c :: rest)
  | c :: rest =>
    if isDigit r c then
      let more := digitRun r rest
      (c :: more.1, more.2)
    else ([], c :: rest)
  | [] => ([], [])

/-- A run of digits that does not begin with an underscore and is not empty. -/
def digits? (r : Radix) (s : List Char) : Option (List Char × List Char) :=
  match s with
  | c :: _ => if isDigit r c then some (digitRun r s) else none
  | [] => none

/-- The number that digits of a radix spell. -/
def spelled (r : Radix) (ds : List Char) : Nat := r.ofDigits (ds.filterMap r.digit?)

/-- A sign, if there is one: whether it is a minus, and what follows. -/
def sign : List Char → Bool × List Char
  | '+' :: rest => (false, rest)
  | '-' :: rest => (true, rest)
  | s => (false, s)

/-- An integer with a sign. -/
def signed (negative : Bool) (n : Nat) : Int := if negative then -n else n

/-- A number in binary, octal or hexadecimal digits, read after its lead. -/
def radixInteger? (r : Radix) (s : List Char) : Option (Datum × List Char) :=
  (digits? r s).map fun (ds, rest) => (.integer (spelled r ds), rest)

/-- The digits in front of the point: a lone zero, or a run that does not begin with one. -/
def wholeDigits? : List Char → Option (List Char × List Char)
  | '0' :: rest => some (['0'], rest)
  | s => digits? .decimal s

/-- The digits after a point, if there are any. -/
def fractionDigits? : List Char → Option (List Char × List Char)
  | '.' :: rest => digits? .decimal rest
  | _ => none

/-- An exponent, if there is one. -/
def exponent? : List Char → Option (Int × List Char)
  | c :: rest =>
    if c == 'e' || c == 'E' then
      let (negative, rest) := sign rest
      (digits? .decimal rest).map fun (ds, rest) => (signed negative (spelled .decimal ds), rest)
    else none
  | [] => none

/-- The places of a decimal exponent beyond which every double is zero or infinite. -/
def farExponent : Int := 400

/--
The double nearest to digits times a power of ten.

Where the power alone settles the answer, it is not computed.
-/
def scaled (negative : Bool) (ds : List Char) (exponent : Int) : Double :=
  let n := spelled .decimal ds
  let places := (Nat.toDigits 10 n).length + exponent
  if n = 0 ∨ places < -farExponent then .zero negative
  else if farExponent < places then .infinity negative
  else Decimal.toDouble negative ⟨n, exponent⟩

/-- The integer that decimal digits spell, if they are not too many. -/
def decimalInteger (negative : Bool) (whole : List Char) : Reading Datum :=
  if Radix.digitLimit < whole.length then .error (.oversized whole.length)
  else .ok (.integer (signed negative (spelled .decimal whole)))

/-- A decimal number: an integer, or a double if it has a fraction or an exponent. -/
def decimal (s : List Char) : Reading (Datum × List Char) :=
  let negative := (sign s).1
  match wholeDigits? (sign s).2 with
  | none => .error .malformed
  | some (whole, s) =>
    match fractionDigits? s, exponent? s with
    | none, none => (decimalInteger negative whole).map (·, s)
    | none, some (e, s) => .ok (.real (scaled negative whole e), s)
    | some (fraction, s), _ =>
      let (e, s) := (exponent? s).getD (0, s)
      .ok (.real (scaled negative (whole ++ fraction) (e - fraction.length)), s)

/-- An infinity or the value that is not a number. -/
def special? (s : List Char) : Option (Datum × List Char) :=
  match sign s with
  | (negative, 'i' :: 'n' :: 'f' :: rest) => some (.real (.infinity negative), rest)
  | (_, 'n' :: 'a' :: 'n' :: rest) => some (.real .nan, rest)
  | _ => none

/-- A number in another radix than ten, if a lead says that it is one. -/
def led? : List Char → Option (Datum × List Char)
  | '0' :: 'x' :: rest => radixInteger? .hexadecimal rest
  | '0' :: 'o' :: rest => radixInteger? .octal rest
  | '0' :: 'b' :: rest => radixInteger? .binary rest
  | _ => none

/-- A number in any form. -/
def number (s : List Char) : Reading (Datum × List Char) :=
  match led? s, decimal s with
  | some x, _ => .ok x
  | none, .error .malformed => .ofOption (special? s)
  | none, r => r

/-- A truth value. -/
def bool? : List Char → Option (Datum × List Char)
  | 't' :: 'r' :: 'u' :: 'e' :: rest => some (.bool true, rest)
  | 'f' :: 'a' :: 'l' :: 's' :: 'e' :: rest => some (.bool false, rest)
  | _ => none

/-- A value that holds no other values. -/
def scalar (s : List Char) : Reading (Datum × List Char) :=
  match s with
  | c :: _ =>
    if c == '"' || c == '\'' then .ofOption ((text? s).map fun (t, rest) => (.text t, rest))
    else
      match bool? s <|> (moment? s).map fun (m, rest) => (.moment m, rest) with
      | some x => .ok x
      | none => number s
  | [] => .error .malformed

end LineCalc.Toml
