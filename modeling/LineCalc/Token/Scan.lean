import LineCalc.Literal
import LineCalc.Token.Basic

/-!
# Scanning a line

`Token.scan` reads a text up to its first newline or form feed. Spaces and tabs
separate tokens and are otherwise skipped, the six symbols are tokens of one
character, and a literal is read as far as it goes. The first character that is
none of these, or the first literal that does not fit in 64 bits, ends the scan
with an error, and then there are no tokens at all.

Positions count characters.
-/

namespace LineCalc

/-- Why a text cannot be scanned. -/
inductive LexError where
  /-- A character outside the calculator's alphabet. -/
  | invalidChar (start : Nat) (char : Char)
  /-- A literal of `2 ^ 64` or more. -/
  | literalTooLarge (start : Nat) (literal : List Char)
deriving DecidableEq, Repr

namespace LexError

/-- The offending text. -/
def text : LexError → String
  | invalidChar _ c => c.toString
  | literalTooLarge _ cs => String.ofList cs

/-- Where the offending text stands. -/
def span : LexError → Span
  | invalidChar start _ => ⟨start, start + 1⟩
  | literalTooLarge start cs => ⟨start, start + cs.length⟩

/-- The error as it is told to the user. -/
def message (e : LexError) : String :=
  match e with
  | invalidChar .. => s!"Invalid character near {e.span.start}..{e.span.stop}: {e.text}"
  | literalTooLarge .. =>
    "Parse int failed: number too large to fit in target type\n" ++
      s!"Near {e.span.start}..{e.span.stop}: {e.text}"

end LexError

namespace Token

/-- Whether a character ends the line that is scanned. -/
def endsLine (c : Char) : Bool := c == '\n' || c == '\x0c'

/-- Whether a character only separates tokens. -/
def isBlank (c : Char) : Bool := c == ' ' || c == '\t'

/-- The tokens of a text that starts at a position. -/
def scanFrom (start : Nat) (cs : List Char) : Except LexError (List Token) :=
  match cs with
  | [] => .ok []
  | c :: rest =>
    if endsLine c then .ok []
    else if isBlank c then scanFrom (start + 1) rest
    else
      match TokenKind.ofSymbol? c with
      | some kind =>
        (scanFrom (start + 1) rest).map (⟨kind, none, ⟨start, start + 1⟩⟩ :: ·)
      | none =>
        match h : Literal.take? (c :: rest) with
        | none => .error (.invalidChar start c)
        | some (literal, after) =>
          match literal.toUInt64? with
          | none => .error (.literalTooLarge start literal.text)
          | some v =>
            let stop := start + literal.text.length
            have := Literal.length_lt_of_take? h
            (scanFrom stop after).map (⟨.number, some v.toNat, ⟨start, stop⟩⟩ :: ·)
termination_by cs.length
decreasing_by all_goals simp only [List.length_cons] at *; omega

/-- The tokens of a line of text. -/
def scan (source : String) : Except LexError (List Token) := scanFrom 0 source.toList

/-- Tokens as they read, one space between each two. -/
def listText (ts : List Token) : String := String.intercalate " " (ts.map text)

end Token

end LineCalc
