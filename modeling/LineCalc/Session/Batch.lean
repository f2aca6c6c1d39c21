import LineCalc.Session.Line

/-!
# One-shot runs

Arguments are taken in order. A switch changes the mode for those that follow;
anything else is echoed after the prompt of its mode and evaluated. The first fault
ends the run, with exit code 1.
-/

namespace LineCalc.Session

/-- The mode that an argument switches to, if it is a switch. -/
def switch? (arg : String) : Option Mode :=
  if arg = "-i" then some .integer
  else if arg = "-f" then some .floating
  else none

/-- What was written in a one-shot run, and its exit code. -/
structure BatchReport where
  transcript : Transcript
  exitCode : Nat

/-- A one-shot run over arguments, from a mode. -/
def runBatch (c : Config) (mode : Mode) : List String → BatchReport
  | [] => ⟨[], 0⟩
  | arg :: rest =>
    match switch? arg with
    | some mode => runBatch c mode rest
    | none =>
      let echo := Message.line (prompt mode ++ arg)
      let line := runLine c mode arg
      if line.faulted then ⟨echo :: line.transcript, 1⟩
      else
        let more := runBatch c mode rest
        ⟨echo :: line.transcript ++ more.transcript, more.exitCode⟩

end LineCalc.Session
