import LineCalc.Config.Basic
import LineCalc.Console

/-!
# One line of input

What the user is told about one expression. A result and an input error are lines
of output; a fault is a line of error output, and only a fault aborts. Each warning
is a line of error output: before a result, but after a fault.
-/

namespace LineCalc

/-- What was written about a line, and whether it ended in a fault. -/
structure LineReport where
  transcript : Transcript
  faulted : Bool

namespace Session

/-- The prompt of a mode. -/
def prompt : Mode → String
  | .integer => "i> "
  | .floating => "f> "

/-- A failure as a line. -/
def failureText (text : String) : String := "Error: " ++ text

/-- Warnings as lines of error output. -/
def warningLines (ws : List Warning) : Transcript :=
  ws.map fun w => .errorLine ("Warning: " ++ w.message)

/-- What the user is told about a line, given what it came to. -/
def report (source : String) (e : Evaluation) : LineReport :=
  let log := e.log.map Message.log
  match e.outcome with
  | .ok v => ⟨log ++ warningLines e.warnings ++ [.line v.text], false⟩
  | .error (.fault f) =>
    ⟨log ++ [.log (.aborted source f), .errorLine (failureText f.message)] ++
      warningLines e.warnings, true⟩
  | .error failure =>
    ⟨log ++ [.line (failureText failure.message)] ++ warningLines e.warnings, false⟩

/-- Evaluates a line and tells the user. -/
def runLine (c : Config) (mode : Mode) (source : String) : LineReport :=
  report source (evaluate mode c.maxDepth source)

end Session

end LineCalc
