import LineCalc.Decimal.Text
import LineCalc.Moment
import LineCalc.Text.Quoted

/-!
# Data

The values that a configuration may be written with: what a configuration file
holds and, besides, the absence of a value. A table keeps its entries in the order
in which they were first put, and has one value for each key.
-/

namespace LineCalc

/-- A value of a configuration file, or the absence of one. -/
inductive Datum where
  | null
  | bool (value : Bool)
  | integer (value : Int)
  | real (value : Double)
  | text (value : String)
  | moment (value : Moment)
  | list (values : List Datum)
  | table (entries : List (String × Datum))
deriving Inhabited

/-- Named values. -/
abbrev Table := List (String × Datum)

namespace Table

/-- The value of a key. -/
def get? (t : Table) (key : String) : Option Datum := t.lookup key

/-- The table with a key's value replaced, or put last if it had none. -/
def put (key : String) (value : Datum) : Table → Table
  | [] => [(key, value)]
  | (k, v) :: rest => if k == key then (k, value) :: rest else (k, v) :: put key value rest

/-- A table updated by the entries of another. -/
def update (t : Table) (changes : Table) : Table :=
  changes.foldl (fun t e => put e.1 e.2 t) t

end Table

namespace Datum

/-- Whether a value counts as none: null, false, zero, or empty. -/
def isFalsy : Datum → Bool
  | null => true
  | bool b => !b
  | integer n => n == 0
  | real x => x == .zero true || x == .zero false
  | text s => s.isEmpty
  | moment _ => false
  | list xs => xs.isEmpty
  | table t => t.isEmpty

mutual

/-- A value in full, texts in quotes. -/
def describe : Datum → String
  | null => "None"
  | bool true => "True"
  | bool false => "False"
  | integer n => toString n
  | real x => x.logText
  | text s => Text.quoted s
  | moment m => m.describe
  | list xs => "[" ++ String.intercalate ", " (describeAll xs) ++ "]"
  | table t => "\x7b" ++ String.intercalate ", " (describeEntries t) ++ "\x7d"

/-- Values in full. -/
def describeAll : List Datum → List String
  | [] => []
  | x :: xs => x.describe :: describeAll xs

/-- Named values in full. -/
def describeEntries : List (String × Datum) → List String
  | [] => []
  | (key, x) :: rest => (Text.quoted key ++ ": " ++ x.describe) :: describeEntries rest

end

/-- A value as plain text: texts and moments as they are, and anything else in full. -/
def plain : Datum → String
  | text s => s
  | moment m => m.text
  | x => x.describe

/-- The kind of a value by name. -/
def kindName : Datum → String
  | null => "NoneType"
  | bool _ => "bool"
  | integer _ => "int"
  | real _ => "float"
  | text _ => "str"
  | moment m => m.kindName
  | list _ => "list"
  | table _ => "dict"

end Datum

end LineCalc
