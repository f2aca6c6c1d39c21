import LineCalc.Literal

/-!
# Reading steps

A step reads something from the front of a text and leaves a shorter rest. That
the rest is shorter is part of the result, so whoever repeats a step comes to an
end. Reading stops at the first thing that is wrong, in the order of the text: the
text is malformed there, or there stands an integer with too many digits, which is
well formed but not turned into a number.
-/

namespace LineCalc.Toml

/-- Why a text is not read to its end. -/
inductive ReadError where
  /-- It is not TOML. -/
  | malformed
  /-- It has a decimal integer of so many digits, which are more than `Radix.digitLimit`. -/
  | oversized (digits : Nat)
deriving DecidableEq, Repr

/-- What is said of a decimal integer with so many digits. -/
def oversizedMessage (digits : Nat) : String :=
  s!"Exceeds the limit ({Radix.digitLimit} digits) for integer string conversion: " ++
    s!"value has {digits} digits"

/-- What reading comes to. -/
abbrev Reading (α : Type) := Except ReadError α

/-- What was recognized, or else the text is malformed. -/
def Reading.ofOption {α : Type} : Option α → Reading α
  | some x => .ok x
  | none => .error .malformed

/-- Something read from the front of a text, and the rest, which is shorter. -/
structure Step (α : Type) (s : List Char) where
  value : α
  rest : List Char
  shorter : rest.length < s.length

namespace Step

variable {α β : Type} {s : List Char}

/-- A value and a rest as a step, if the rest is shorter. -/
def of? (s : List Char) (p : Option (α × List Char)) : Option (Step α s) :=
  match p with
  | none => none
  | some (value, rest) => if h : rest.length < s.length then some ⟨value, rest, h⟩ else none

/-- What was read and a rest as a step, if the rest is shorter. -/
def ofReading (s : List Char) (p : Reading (α × List Char)) : Reading (Step α s) :=
  match p with
  | .error e => .error e
  | .ok (value, rest) =>
    if h : rest.length < s.length then .ok ⟨value, rest, h⟩ else .error .malformed

/-- A step with its value changed. -/
def map (f : α → β) (x : Step α s) : Step β s := ⟨f x.value, x.rest, x.shorter⟩

/-- A step from a text, seen as a step from a text that is no shorter. -/
def widen {t : List Char} (x : Step α s) (h : s.length ≤ t.length) : Step α t :=
  ⟨x.value, x.rest, Nat.lt_of_lt_of_le x.shorter h⟩

end Step

/-- Whether a character is a control other than the tab. -/
def isControl (c : Char) : Bool := (c.toNat < 0x20 && c != '\t') || c == '\x7f'

/-- Whether a character separates the parts of a statement. -/
def isGap (c : Char) : Bool := c == ' ' || c == '\t'

/-- A text without the gap it begins with. -/
def skipGap (s : List Char) : List Char := s.dropWhile isGap

theorem skipGap_length_le (s : List Char) : (skipGap s).length ≤ s.length :=
  (List.dropWhile_suffix _).sublist.length_le

/-- A text without the gaps, line ends and comments it begins with. -/
def skipFiller : (inComment : Bool) → List Char → Option (List Char)
  | _, [] => some []
  | true, c :: rest =>
    if c == '\n' then skipFiller false rest
    else if isControl c then none
    else skipFiller true rest
  | false, c :: rest =>
    if isGap c || c == '\n' then skipFiller false rest
    else if c == '#' then skipFiller true rest
    else some (c :: rest)

theorem skipFiller_length_le {b : Bool} {s r : List Char} (h : skipFiller b s = some r) :
    r.length ≤ s.length := by
  fun_induction skipFiller b s <;> grind

/-- A text with each carriage return before a newline left out. -/
def joinLineEnds : List Char → List Char
  | '\r' :: '\n' :: rest => '\n' :: joinLineEnds rest
  | c :: rest => c :: joinLineEnds rest
  | [] => []

end LineCalc.Toml
