import LineCalc.Decimal.Text
import LineCalc.Evaluation.Floating
import LineCalc.Evaluation.Integer
import LineCalc.Evaluation.Trace
import LineCalc.Expr.Parse
import LineCalc.Token.Nesting
import LineCalc.Token.Scan

/-!
# From a line of text to a number

`evaluate` scans a line, holds its nesting against a cap, reads the expression and
evaluates it in one of two modes. The first step that fails decides the outcome,
and the mode plays no part before the last one. Beside the outcome stand the
warnings and what the steps wrote to the log.
-/

namespace LineCalc

/-- The arithmetic a line is evaluated in. -/
inductive Mode where
  | integer
  | floating
deriving DecidableEq, Repr

namespace Mode

/-- The modes, in the order in which they are listed to the user. -/
def all : List Mode := [integer, floating]

/-- The name a mode goes by. -/
def name : Mode → String
  | integer => "i128"
  | floating => "f64"

/-- The mode that goes by a name. -/
def ofName? (name : String) : Option Mode := all.find? (·.name == name)

/-- The mode that goes by a name, or what is wrong with the name. -/
def ofName (name : String) : Except UnknownName Mode :=
  match ofName? name with
  | some mode => .ok mode
  | none => .error ⟨"Mode", name⟩

theorem ofName?_name (m : Mode) : ofName? m.name = some m := by
  cases m <;> decide

end Mode

/-- A number of either mode. -/
inductive Value where
  | integer (v : Int)
  | double (x : Double)
deriving DecidableEq

namespace Value

/-- A number as a result. -/
def text : Value → String
  | integer v => toString v
  | double x => x.text

/-- A number as log lines show it. -/
def logText : Value → String
  | integer v => toString v
  | double x => x.logText

end Value

/-- What the calculator writes to its log. -/
inductive LogEntry where
  | starting (mode : Mode) (arguments : Nat)
  | scanned (tokens : Nat) (source : String)
  | parsed (tokens : Nat) (tree : Expr)
  | evaluating (tree : Expr) (mode : Mode)
  | evaluated (tree : Expr) (value : Value)
  | aborted (source : String) (fault : Fault)
deriving DecidableEq

namespace LogEntry

/-- The part of the calculator that writes an entry. -/
def origin : LogEntry → String
  | starting .. | aborted .. => "wcal.cli"
  | scanned .. => "wcal.core.lexer"
  | parsed .. => "wcal.core.parser"
  | evaluating .. => "wcal.core.calculator"
  | evaluated .. => "wcal.core.evaluator"

/-- The text of an entry. -/
def message : LogEntry → String
  | starting mode n => s!"Starting in {mode.name} mode with {n} arguments"
  | scanned n source => s!"Scanned {n} tokens from {Text.quoted source}"
  | parsed n tree => s!"Parsed {n} tokens into {tree.render}"
  | evaluating tree mode => s!"Evaluating {tree.render} in {mode.name} mode"
  | evaluated tree (.integer v) => s!"Integer result of {tree.render}: {v}"
  | evaluated tree (.double x) => s!"Float result of {tree.render}: {x.logText}"
  | aborted source fault => s!"Evaluation of {Text.quoted source} aborted: {fault.message}"

end LogEntry

/-- Why a line has no result. -/
inductive Failure where
  | lex (e : LexError)
  | parse (e : ParseError)
  /-- The tokens nest deeper than the cap allows. -/
  | tooDeep
  | fault (f : Fault)
deriving DecidableEq, Repr

namespace Failure

/-- A failure as it is told to the user. -/
def message : Failure → String
  | lex e => e.message
  | parse e => e.message
  | tooDeep => "Expression nested too deeply"
  | fault f => f.message

end Failure

/-- What became of a line: its outcome, the warnings on the way, and what was logged. -/
structure Evaluation where
  outcome : Except Failure Value
  warnings : List Warning := []
  log : List LogEntry := []

/-- The value of a tree in a mode. -/
def RawExpr.evaluateIn (mode : Mode) (e : RawExpr) : Run Value :=
  match mode with
  | .integer => Value.integer <$> e.evaluate Integer.arithmetic
  | .floating => Value.double <$> e.evaluate Floating.arithmetic

/-- The value of an expression in a mode. -/
def Expr.evaluateIn (mode : Mode) (e : Expr) : Run Value := e.toRaw.evaluateIn mode

/-- Whether tokens nest deeper than a cap; no cap allows any depth. -/
def exceeds (cap : Option Int) (ts : List Token) : Bool :=
  match cap with
  | none => false
  | some k => k < Token.nestingDepth ts

/-- The expression that a text is, however deep it nests. -/
def Expr.ofText (source : String) : Except Failure Expr :=
  match Token.scan source with
  | .error e => .error (.lex e)
  | .ok ts => (Expr.parse ts).mapError .parse

/-- Whether an expression, rendered, reads as the same expression. -/
def Expr.readsBack (e : Expr) : Bool :=
  match Expr.ofText e.render with
  | .ok e' => e' = e
  | .error _ => false

/-- What a line of text comes to. -/
def evaluate (mode : Mode) (cap : Option Int) (source : String) : Evaluation :=
  match Token.scan source with
  | .error e => { outcome := .error (.lex e) }
  | .ok ts =>
    let scanned := LogEntry.scanned ts.length source
    if exceeds cap ts then { outcome := .error .tooDeep, log := [scanned] }
    else
      match Expr.parse ts with
      | .error e => { outcome := .error (.parse e), log := [scanned] }
      | .ok tree =>
        let run := tree.evaluateIn mode
        let log := [scanned, .parsed ts.length tree, .evaluating tree mode]
        match run.outcome with
        | .error f => { outcome := .error (.fault f), warnings := run.warnings, log }
        | .ok v =>
          { outcome := .ok v, warnings := run.warnings, log := log ++ [.evaluated tree v] }

end LineCalc
