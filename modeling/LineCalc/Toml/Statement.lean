import LineCalc.Toml.Scalar

/-!
# Statements of a TOML document

A document is a list of statements, one a line: a table header, the header of one
more element of an array of tables, or an entry, a key with its value. Keys are
paths, their parts separated by points. What the statements make together is for
`LineCalc.Toml.Document` to say; an inline table is such a document in small, and
is put together here, entry by entry as it is read.
-/

namespace LineCalc.Toml

/-- The parts of a dotted key. -/
abbrev Path := List String

/-- One line of a document that says something. -/
inductive Statement where
  | table (path : Path)
  | element (path : Path)
  | entry (path : Path) (value : Datum)

/-! ## Keys -/

/-- Whether a character may stand in a key without quotes. -/
def isBare (c : Char) : Bool := c.isAlphanum || c == '-' || c == '_'

/-- One part of a key. -/
def keyPart? (s : List Char) : Option (String × List Char) :=
  match s with
  | '"' :: rest => basicFrom [] rest
  | '\'' :: rest => literalText? rest
  | _ =>
    match s.takeWhile isBare with
    | [] => none
    | part => some (String.ofList part, s.dropWhile isBare)

/-- A dotted key, and the gap after it. -/
def key? (s : List Char) : Option (Step Path s) :=
  match Step.of? s (keyPart? s) with
  | none => none
  | some part =>
    have := part.shorter
    have := skipGap_length_le part.rest
    match h : skipGap part.rest with
    | '.' :: rest =>
      have hl : rest.length + 1 = (skipGap part.rest).length := by rw [h]; rfl
      have := skipGap_length_le rest
      (key? (skipGap rest)).map fun more => (more.map (part.value :: ·)).widen (by omega)
    | rest => some ⟨[part.value], rest, by rw [← h]; omega⟩
termination_by s.length

/-! ## Tables that grow -/

/--
A table with the table at a path changed, and with tables made where the path has
none. A path leads through the last element of an array if arrays may be entered.
-/
def nest (enterArrays : Bool) (change : Table → Option Table) : Path → Table → Option Table
  | [], t => change t
  | key :: path, t =>
    match t.get? key with
    | none => (nest enterArrays change path []).map fun u => t.put key (.table u)
    | some (.table u) => (nest enterArrays change path u).map fun u => t.put key (.table u)
    | some (.list xs) =>
      match enterArrays, xs.getLast? with
      | true, some (.table u) =>
        (nest enterArrays change path u).map fun u => t.put key (.list (xs.dropLast ++ [.table u]))
      | _, _ => none
    | some _ => none

/-- A table with one more entry, unless the key has a value already. -/
def define (key : String) (value : Datum) (t : Table) : Option Table :=
  match t.get? key with
  | none => some (t.put key value)
  | some _ => none

/-- Whether a value holds others, and may not be changed by later statements. -/
def isCompound : Datum → Bool
  | .list _ | .table _ => true
  | _ => false

/-- Whether one of some paths leads to a path or to something around it. -/
def covers (paths : List Path) (p : Path) : Bool := paths.any (·.isPrefixOf p)

/-- What the entries of an inline table read so far have made. -/
structure Inline where
  table : Table := []
  /-- The arrays and inline tables that nothing may be added to. -/
  closed : List Path := []

/-- An inline table with one more entry. -/
def Inline.add (t : Inline) (path : Path) (value : Datum) : Option Inline :=
  if covers t.closed path then none
  else do
    let key ← path.getLast?
    let table ← nest false (define key value) path.dropLast t.table
    some ⟨table, if isCompound value then path :: t.closed else t.closed⟩

/-! ## Values -/

mutual

/-- A value of any kind. -/
def value (s : List Char) : Reading (Step Datum s) :=
  match s with
  | '[' :: rest => (elements rest).map fun xs => (xs.map .list).widen (by simp)
  | '\x7b' :: rest =>
    have := skipGap_length_le rest
    match h : skipGap rest with
    | '\x7d' :: after =>
      .ok ⟨.table [], after, by
        have := congrArg List.length h
        simp only [List.length_cons] at *
        omega⟩
    | _ =>
      (members {} (skipGap rest)).map fun t =>
        (t.map .table).widen (by simp only [List.length_cons]; omega)
  | s => Step.ofReading s (scalar s)
termination_by 4 * s.length

/-- The elements of an array, read after its bracket or after a comma. -/
def elements (s : List Char) : Reading (Step (List Datum) s) :=
  match h : skipFiller false s with
  | none => .error .malformed
  | some (']' :: rest) =>
    .ok ⟨[], rest, by have := skipFiller_length_le h; simp only [List.length_cons] at this; omega⟩
  | some start =>
    have := skipFiller_length_le h
    match value start with
    | .error e => .error e
    | .ok x =>
      have := x.shorter
      match h' : skipFiller false x.rest with
      | some (']' :: rest) =>
        .ok ⟨[x.value], rest, by
          have := skipFiller_length_le h'; simp only [List.length_cons] at this; omega⟩
      | some (',' :: rest) =>
        have := skipFiller_length_le h'
        have : rest.length < s.length := by simp only [List.length_cons] at this; omega
        (elements rest).map fun xs => (xs.map (x.value :: ·)).widen (by omega)
      | _ => .error .malformed
termination_by 4 * s.length + 1

/-- An inline table up to its brace, read after the opening brace or a comma. -/
def members (t : Inline) (s : List Char) : Reading (Step Table s) :=
  match pair s with
  | .error e => .error e
  | .ok x =>
    match t.add x.value.1 x.value.2 with
    | none => .error .malformed
    | some t =>
      have := x.shorter
      have := skipGap_length_le x.rest
      match h : skipGap x.rest with
      | '\x7d' :: rest =>
        .ok ⟨t.table, rest, by
          have := congrArg List.length h; simp only [List.length_cons] at this; omega⟩
      | ',' :: rest =>
        have := skipGap_length_le rest
        have : rest.length < s.length := by
          have := congrArg List.length h; simp only [List.length_cons] at this; omega
        (members t (skipGap rest)).map (·.widen (by omega))
      | _ => .error .malformed
termination_by 4 * s.length + 2

/-- A key, an equals sign and a value. -/
def pair (s : List Char) : Reading (Step (Path × Datum) s) :=
  match key? s with
  | none => .error .malformed
  | some key =>
    have := key.shorter
    match h : key.rest with
    | '=' :: rest =>
      have := skipGap_length_le rest
      have : rest.length + 1 = key.rest.length := by rw [h]; rfl
      (value (skipGap rest)).map fun x => (x.map ((key.value, ·))).widen (by omega)
    | _ => .error .malformed
termination_by 4 * s.length + 1

end

/-! ## Lines -/

/-- The rest of a text after the end of a line, with only a gap and a comment before it. -/
def endLine? (s : List Char) : Option (List Char) :=
  let s := skipGap s
  let comment := match s with
    | '#' :: _ => s.takeWhile (· != '\n')
    | _ => []
  if comment.any isControl then none
  else
    match s.drop comment.length with
    | [] => some []
    | '\n' :: rest => some rest
    | _ => none

/-- What stands on a line that is no entry: a header, or nothing. -/
def header? : List Char → Option (Option Statement × List Char)
  | '[' :: '[' :: rest => do
    let path ← key? (skipGap rest)
    match path.rest with
    | ']' :: ']' :: after => some (some (.element path.value), after)
    | _ => none
  | '[' :: rest => do
    let path ← key? (skipGap rest)
    match path.rest with
    | ']' :: after => some (some (.table path.value), after)
    | _ => none
  | s => some (none, s)

/-- A statement at the front of a text, if the line has one. -/
def statement (s : List Char) : Reading (Option Statement × List Char) :=
  match s with
  | [] | '\n' :: _ | '#' :: _ | '[' :: _ => .ofOption (header? s)
  | s => (pair s).map fun entry => (some (.entry entry.value.1 entry.value.2), entry.rest)

/-- One line, with the statement on it. -/
def line (s : List Char) : Reading (Step (Option Statement) s) :=
  Step.ofReading s do
    let (statement, rest) ← statement (skipGap s)
    let rest ← .ofOption (endLine? rest)
    .ok (statement, rest)

end LineCalc.Toml
