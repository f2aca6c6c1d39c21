import LineCalc.Toml.Statement

/-!
# TOML documents

The statements of a document build one table, line by line. Each table may be opened by a header
once, a dotted key may not reach into a table that a header has opened, and a value
that is an array or an inline table is closed to everything after it. One more
element of an array of tables starts afresh below its path.
-/

namespace LineCalc.Toml

/-- What the statements read so far have made. -/
structure Document where
  root : Table := []
  /-- The path of the table that entries go into. -/
  header : Path := []
  /-- The tables that may not be opened again. -/
  opened : List Path := []
  /-- The tables that dotted keys made since the last header; they count as opened at the next. -/
  dotted : List Path := []
  /-- The arrays and inline tables that nothing may be added to. -/
  closed : List Path := []

namespace Document

/-- A document at a header, where the tables that dotted keys made are opened ones. -/
def settle (d : Document) : Document := { d with opened := d.dotted ++ d.opened, dotted := [] }

/-- A document with a table opened. -/
def openTable (d : Document) (path : Path) : Option Document :=
  if d.opened.contains path || covers d.closed path then none
  else do
    let root ← nest true some path d.root
    some { d with root, header := path, opened := path :: d.opened }

/-- A table with one more element in an array of tables. -/
def appendElement (key : String) (t : Table) : Option Table :=
  match t.get? key with
  | none => some (t.put key (.list [.table []]))
  | some (.list xs) => some (t.put key (.list (xs ++ [.table []])))
  | some _ => none

/-- A document with one more element in an array of tables. -/
def openElement (d : Document) (path : Path) : Option Document :=
  if covers d.closed path then none
  else do
    let key ← path.getLast?
    let root ← nest true (appendElement key) path.dropLast d.root
    let outside := fun p => !path.isPrefixOf p
    some { d with
      root, header := path
      opened := path :: d.opened.filter outside
      closed := d.closed.filter outside }

/-- A document with one more entry in its current table. -/
def addEntry (d : Document) (path : Path) (value : Datum) : Option Document :=
  let around := (List.range path.length).tail.map fun n => d.header ++ path.take n
  let parent := d.header ++ path.dropLast
  if around.any d.opened.contains || covers d.closed parent then none
  else do
    let key ← path.getLast?
    let root ← nest true (define key value) parent d.root
    some { d with
      root
      dotted := around ++ d.dotted
      closed := if isCompound value then (d.header ++ path) :: d.closed else d.closed }

/-- A document with one more statement. -/
def apply (d : Document) : Statement → Option Document
  | .table path => d.settle.openTable path
  | .element path => d.settle.openElement path
  | .entry path value => d.addEntry path value

/-- A document with the lines of a text, each put in before the next is read. -/
def read (d : Document) (s : List Char) : Reading Document :=
  match s with
  | [] => .ok d
  | c :: rest =>
    match line (c :: rest) with
    | .error e => .error e
    | .ok l =>
      have := l.shorter
      match l.value.elim (some d) d.apply with
      | none => .error .malformed
      | some d => d.read l.rest
termination_by s.length
decreasing_by simp only [List.length_cons] at *; omega

end Document

/-- The table that a TOML text describes. -/
def read (text : String) : Reading Table :=
  (Document.read {} (joinLineEnds text.toList)).map (·.root)

end LineCalc.Toml
