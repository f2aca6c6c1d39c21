import LineCalc.Calculator
import LineCalc.Datum
import LineCalc.WholeNumber

/-!
# Configurations

A configuration is a starting mode, a cap on nesting or none, and a log level. It
is read from a table field by field: each entry is judged by its key and its value
alone, so what is wrong with one says nothing about another, and everything that
is wrong is reported. A field without an entry has its default.

Reports come in the order of the keys, which is that of a dictionary.
-/

namespace LineCalc

namespace Text

/-- Whether characters come before others in the order of texts, or are the same. -/
def charsNotAfter : List Char → List Char → Bool
  | [], _ => true
  | _ :: _, [] => false
  | a :: s, b :: t => a.toNat < b.toNat || (a.toNat == b.toNat && charsNotAfter s t)

/-- Whether a text comes before another in the order of texts, or is the same. -/
def notAfter (s t : String) : Bool := charsNotAfter s.toList t.toList

end Text

/-- How much is logged. -/
inductive LogLevel where
  | debug
  | info
  | warning
  | error
  | critical
deriving DecidableEq, Repr

namespace LogLevel

/-- The levels, from the most to the least that is logged. -/
def all : List LogLevel := [debug, info, warning, error, critical]

/-- The name a level goes by. -/
def name : LogLevel → String
  | debug => "DEBUG"
  | info => "INFO"
  | warning => "WARNING"
  | error => "ERROR"
  | critical => "CRITICAL"

/--
A character in upper case, as far as the names of levels go.

Beside the small Latin letters only the dotless i has one of their letters as its
capital.
-/
def capital (c : Char) : Char := if c = 'ı' then 'I' else c.toUpper

/-- The level that goes by a name, in capital or small letters. -/
def ofName? (name : String) : Option LogLevel :=
  let upper := name.toList.map capital
  all.find? (·.name.toList == upper)

theorem ofName?_name (l : LogLevel) : ofName? l.name = some l := by
  cases l <;> decide

end LogLevel

/-- What the calculator is set to. -/
structure Config where
  mode : Mode := .integer
  maxDepth : Option Int := none
  logLevel : LogLevel := .warning
deriving DecidableEq, Repr

namespace Config

/-- What is wrong with an entry, or with the whole section. -/
inductive Problem where
  /-- The section is not a table. -/
  | notTable
  /-- The key means nothing. -/
  | unknownKey
  /-- Not one of the modes. -/
  | mode
  /-- A cap below one. -/
  | depthTooSmall
  /-- A text that is not a whole number. -/
  | depthText
  /-- A number with a fraction. -/
  | depthFraction
  /-- A number that is not finite. -/
  | depthInfinite
  /-- A text or a double that is too long or too large to be taken for a whole number. -/
  | depthSize
  /-- Nothing like a number. -/
  | depthSort
  /-- A level that is not a text. -/
  | levelSort
  /-- A text that is not the name of a level. -/
  | levelName (given : String)
deriving DecidableEq, Repr

namespace Problem

/-- The sort of fault that a problem is. -/
def sort : Problem → String
  | notTable => "model_type"
  | unknownKey => "extra_forbidden"
  | mode => "enum"
  | depthTooSmall => "greater_than_equal"
  | depthText => "int_parsing"
  | depthFraction => "int_from_float"
  | depthInfinite => "finite_number"
  | depthSize => "int_parsing_size"
  | depthSort => "int_type"
  | levelSort => "string_type"
  | levelName _ => "value_error"

/-- A problem as it is told to the user. -/
def message : Problem → String
  | notTable => "Input should be a valid dictionary or instance of CalculatorConfig"
  | unknownKey => "Extra inputs are not permitted"
  | mode => "Input should be 'i128' or 'f64'"
  | depthTooSmall => "Input should be greater than or equal to 1"
  | depthText => "Input should be a valid integer, unable to parse string as an integer"
  | depthFraction => "Input should be a valid integer, got a number with a fractional part"
  | depthInfinite => "Input should be a finite number"
  | depthSize => "Unable to parse input string as an integer, exceeded maximum size"
  | depthSort => "Input should be a valid integer"
  | levelSort => "Input should be a valid string"
  | levelName given =>
    s!"Value error, Invalid log level '{given}'. Must be one of: " ++
      String.intercalate ", " (LogLevel.all.map LogLevel.name)

/-- How a problem of the entry at a path is reported. -/
def complaint (path : List String) (p : Problem) : Complaint := ⟨path, p.sort, p.message⟩

end Problem

/-! ## Single fields -/

/-- The size from which on a double is not taken for a whole number. -/
def realLimit : Nat := 1 <<< 63

/-- The whole number that a double is, if it is one of less than `realLimit`. -/
def wholeReal : Double → Except Problem Int
  | .finite negative n _ =>
    if n % Double.unitsPerOne ≠ 0 then .error .depthFraction
    else if realLimit ≤ n / Double.unitsPerOne then .error .depthSize
    else .ok (Double.signedUnits negative (n / Double.unitsPerOne))
  | _ => .error .depthInfinite

/-- The whole number that a text is, if it is one. -/
def wholeText (s : String) : Except Problem Int :=
  match WholeNumber.ofText s with
  | .ok n => .ok n
  | .error .malformed => .error .depthText
  | .error .tooLong => .error .depthSize

/-- The whole number that a value is, if it is one. -/
def wholeNumber : Datum → Except Problem Int
  | .integer n => .ok n
  | .bool b => .ok (if b then 1 else 0)
  | .real x => wholeReal x
  | .text s => wholeText s
  | _ => .error .depthSort

/-- The mode that a value names. -/
def readMode : Datum → Except Problem Mode
  | .text s =>
    match Mode.ofName? s with
    | some m => .ok m
    | none => .error .mode
  | _ => .error .mode

/-- The cap that a value sets; no value sets none. -/
def readMaxDepth : Datum → Except Problem (Option Int)
  | .null => .ok none
  | x =>
    match wholeNumber x with
    | .error e => .error e
    | .ok n => if 1 ≤ n then .ok (some n) else .error .depthTooSmall

/-- The log level that a value names. -/
def readLogLevel : Datum → Except Problem LogLevel
  | .text s =>
    match LogLevel.ofName? s with
    | some l => .ok l
    | none => .error (.levelName s)
  | _ => .error .levelSort

/-! ## Whole sections -/

/-- The configuration with the field of a key set to what a value says. -/
def set (c : Config) (key : String) (value : Datum) : Except Problem Config :=
  if key = "mode" then (readMode value).map fun mode => { c with mode }
  else if key = "max_depth" then (readMaxDepth value).map fun maxDepth => { c with maxDepth }
  else if key = "log_level" then (readLogLevel value).map fun logLevel => { c with logLevel }
  else .error .unknownKey

/-- What is wrong with an entry on its own. -/
def entryComplaint? (key : String) (value : Datum) : Option Complaint :=
  match set {} key value with
  | .ok _ => none
  | .error p => some (p.complaint [key])

/-- The configuration changed by those entries of a table that can be. -/
def setAll (c : Config) (t : Table) : Config :=
  t.foldl (fun c e => match c.set e.1 e.2 with | .ok c' => c' | .error _ => c) c

/--
Everything that is wrong with a table, in the order of the keys.

The check that reports it lists the fields first, as they are declared, and then the
unknown keys as they were given. Here the order of the table does not matter, so that
two tables with the same entries have the same list.
-/
def complaints (t : Table) : List Complaint :=
  (t.mergeSort fun a b => Text.notAfter a.1 b.1).filterMap fun e => entryComplaint? e.1 e.2

/-- The configuration that a table describes, or everything that is wrong with it. -/
def ofTable (t : Table) : Except (List Complaint) Config :=
  match complaints t with
  | [] => .ok (setAll {} t)
  | cs => .error cs

/-- The configuration that a value describes, or everything that is wrong with it. -/
def ofDatum : Datum → Except (List Complaint) Config
  | .table t => ofTable t
  | _ => .error [Problem.notTable.complaint []]

/-- A configuration as a table of all its fields. -/
def toTable (c : Config) : Table :=
  [("mode", .text c.mode.name),
    ("max_depth", match c.maxDepth with | some n => .integer n | none => .null),
    ("log_level", .text c.logLevel.name)]

/-- A configuration with some fields replaced, judged like one that was read. -/
def override (c : Config) (changes : Table) : Except (List Complaint) Config :=
  ofTable (c.toTable.update changes)

end Config

end LineCalc
