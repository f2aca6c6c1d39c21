import LineCalc.Text.Width

/-!
# Text as the terminal shows it

Before a text is printed, the characters that would ring, go back or move the
paper are dropped, and each tab becomes the spaces up to the next column that is a
multiple of eight, at least one. Columns are counted from the start of each line.

What stands between two tabs is measured together with the first space that the
second one becomes, so a joiner in front of a tab takes that space in.

The name of a pictograph between colons is replaced by it on a real terminal. That is
left out here, so what is said of the two streams is said of the messages as well,
which are what the terminal is handed.
-/

namespace LineCalc.Text

/-- Whether a character is dropped: bell, backspace, vertical tab, form feed, carriage return. -/
def isDropped (c : Char) : Bool :=
  c == '\x07' || c == '\x08' || c == '\x0b' || c == '\x0c' || c == '\r'

/-- The pieces of characters between marks, the first of which has begun, last character first. -/
def piecesFrom (mark : Char) (begun : List Char) : List Char → List (List Char)
  | [] => [begun.reverse]
  | c :: rest =>
    if c == mark then begun.reverse :: piecesFrom mark [] rest
    else piecesFrom mark (c :: begun) rest

/-- The pieces of characters between marks; there is one more of them than of marks. -/
def pieces (mark : Char) (cs : List Char) : List (List Char) := piecesFrom mark [] cs

/-- The distance between two tab stops. -/
def tabWidth : Nat := 8

/-- The first tab stop that is not before a column. -/
def tabStop (column : Nat) : Nat := (column + tabWidth - 1) / tabWidth * tabWidth

/-- The pieces of a line between tabs, from a column on, with the tabs expanded. -/
def expandFrom (column : Nat) : List (List Char) → List Char
  | [] => []
  | [piece] => piece
  | piece :: rest =>
    let begun := piece ++ [' ']
    let reached := column + measure begun
    let stop := tabStop reached
    begun ++ List.replicate (stop - reached) ' ' ++ expandFrom stop rest

/-- Characters with the tabs of each line expanded. -/
def expand (cs : List Char) : List Char :=
  List.intercalate ['\n'] ((pieces '\n' cs).map fun line => expandFrom 0 (pieces '\t' line))

/-- A text as the terminal shows it, the names of pictographs being left as they are. -/
def display (s : String) : String := String.ofList (expand (s.toList.filter (!isDropped ·)))

end LineCalc.Text
