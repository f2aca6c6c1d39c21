import LineCalc.Text.Quoted

/-!
# Tokens

A token is a kind, a value and the span of text it was read from. Scanned text
gives a value to numbers only, and always one below `2 ^ 64`; a token made by
hand may carry any value or none, and the parser says what it thinks of that.

Two tokens are taken for the same when their kinds and values agree, wherever
they stand.

Kinds go by names, and other values too are chosen by name from a short list. A name
that is not on the list is an `UnknownName`.
-/

namespace LineCalc

/-- A name that none of the choices goes by. -/
structure UnknownName where
  /-- What is chosen between. -/
  choice : String
  given : String
deriving DecidableEq, Repr

/-- An unknown name as it is told to the user: together with what was to be chosen. -/
def UnknownName.message (e : UnknownName) : String :=
  s!"{Text.quoted e.given} is not a valid {e.choice}"

/-- A half-open range of character positions. -/
structure Span where
  start : Nat
  stop : Nat
deriving DecidableEq, Repr

/-- What a token is. -/
inductive TokenKind where
  | plus
  | minus
  | star
  | slash
  | leftParen
  | rightParen
  | number
deriving DecidableEq, Repr

namespace TokenKind

/-- The kinds, in the order in which they are listed to the user. -/
def all : List TokenKind := [plus, minus, star, slash, leftParen, rightParen, number]

/-- The name a kind goes by. -/
def name : TokenKind → String
  | plus => "plus"
  | minus => "minus"
  | star => "star"
  | slash => "slash"
  | leftParen => "lparen"
  | rightParen => "rparen"
  | number => "number"

/-- The kind that goes by a name. -/
def ofName? (name : String) : Option TokenKind := all.find? (·.name == name)

/-- The kind that goes by a name, or what is wrong with the name. -/
def ofName (name : String) : Except UnknownName TokenKind :=
  match ofName? name with
  | some kind => .ok kind
  | none => .error ⟨"TokenKind", name⟩

/-- The character that a kind other than a number is written with. -/
def symbol? : TokenKind → Option Char
  | plus => some '+'
  | minus => some '-'
  | star => some '*'
  | slash => some '/'
  | leftParen => some '('
  | rightParen => some ')'
  | number => none

/-- The kind written with a character. -/
def ofSymbol? (c : Char) : Option TokenKind :=
  if c = '+' then some plus
  else if c = '-' then some minus
  else if c = '*' then some star
  else if c = '/' then some slash
  else if c = '(' then some leftParen
  else if c = ')' then some rightParen
  else none

theorem ofSymbol?_eq_some_iff {c : Char} {k : TokenKind} :
    ofSymbol? c = some k ↔ k.symbol? = some c := by
  unfold ofSymbol?
  cases k <;> simp only [symbol?] <;> grind

theorem ofName?_name (k : TokenKind) : ofName? k.name = some k := by
  cases k <;> decide

end TokenKind

/-- A token: its kind, its value if it has one, and where it stands. -/
structure Token where
  kind : TokenKind
  value : Option Int := none
  span : Span := ⟨0, 0⟩
deriving DecidableEq, Repr

namespace Token

/-- What a token means, apart from where it stands. -/
def content (t : Token) : TokenKind × Option Int := (t.kind, t.value)

/-- Whether two tokens mean the same. -/
def sameContent (a b : Token) : Bool := a.content == b.content

/-- A token without value, such as every symbol. -/
def ofKind (k : TokenKind) : Token := { kind := k }

/-- The token of a number. -/
def ofNumber (v : UInt64) : Token := { kind := .number, value := some v.toNat }

/-- A value as it is shown, also where there is none. -/
def valueText : Option Int → String
  | some v => toString v
  | none => "None"

/-- A token as it reads: its symbol, or the decimal digits of its value. -/
def text (t : Token) : String :=
  match t.kind.symbol? with
  | some c => c.toString
  | none => valueText t.value

/-- A token in full: kind, value of a number, span. -/
def describe (t : Token) : String :=
  let span := s!"span=({t.span.start}, {t.span.stop})"
  match t.kind with
  | .number => s!"Token({t.kind.name}, {valueText t.value}, {span})"
  | _ => s!"Token({t.kind.name}, {span})"

end Token

end LineCalc
