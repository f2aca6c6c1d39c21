import LineCalc.Calculator
import LineCalc.Text.Columns

/-!
# What is written where

Whatever the calculator does is told as a list of messages: results and prompts on
standard output, faults and warnings on standard error, and log entries, which go to
standard error too if the log is on. `Transcript.stdout` and `Transcript.stderr` are
the texts that the two streams receive.
-/

namespace LineCalc

/-- Something written to the user. -/
inductive Message where
  /-- A line of output. -/
  | line (text : String)
  /-- Output that the input will follow on the same line. -/
  | prompt (text : String)
  /-- A line of error output. -/
  | errorLine (text : String)
  /-- An entry of the log. -/
  | log (entry : LogEntry)
deriving DecidableEq

/-- All that is written, in order. -/
abbrev Transcript := List Message

/-- A log entry as a line, with a time stamp. -/
def LogEntry.line (stamp : String) (e : LogEntry) : String :=
  s!"[{stamp}] {e.origin} - DEBUG - {e.message}\n"

namespace Message

/-- What a message adds to standard output. -/
def stdout : Message → String
  | line text => Text.display text ++ "\n"
  | prompt text => Text.display text
  | errorLine _ | log _ => ""

/-- What a message adds to standard error, log entries having a time stamp. -/
def stderr (stamp : String) : Message → String
  | line _ | prompt _ => ""
  | errorLine text => Text.display text ++ "\n"
  | log entry => entry.line stamp

/-- Whether a message is an entry of the log. -/
def isLog : Message → Bool
  | log _ => true
  | _ => false

end Message

namespace Transcript

/-- The text on standard output. -/
def stdout (t : Transcript) : String := String.join (t.map Message.stdout)

/-- The text on standard error, log entries having a time stamp. -/
def stderr (stamp : String) (t : Transcript) : String := String.join (t.map (Message.stderr stamp))

/-- A transcript without log entries. -/
def withoutLog (t : Transcript) : Transcript := t.filter (!·.isLog)

end Transcript

end LineCalc
