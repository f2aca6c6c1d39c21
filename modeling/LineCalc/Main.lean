import LineCalc.Command

/-!
# The program

The outer layer: it reads the command line, the configuration file and standard
input, and writes what the library says is to be written. An interactive session is
carried out line by line, so that each reply is seen before the next line is typed.
-/

namespace LineCalc.Terminal

/-- Writes messages to the two streams as they come. -/
def write (messages : Transcript) : IO Unit := do
  let out ← IO.getStdout
  let err ← IO.getStderr
  for message in messages do
    let stamp := toString (← IO.monoMsNow)
    out.putStr message.stdout
    out.flush
    err.putStr (message.stderr stamp)
    err.flush

/-- Reads, answers and prompts until the session ends. -/
partial def converse (c : Config) (mode : Mode) : IO Unit := do
  write [.prompt (Session.prompt mode)]
  let line ← (← IO.getStdin).getLine
  if line.isEmpty then write [.line ""]
  else
    let reply := Session.respond c mode line
    write (Command.shown c.logLevel reply.transcript)
    match reply.next with
    | some next => converse c next
    | none => pure ()

/-- The bytes of a file, if there is one. -/
def readFile? (path : String) : IO (Option ByteArray) := do
  try
    return some (← IO.FS.readBinFile path)
  catch _ => return none

/-- The file that a command line may need, if it is there. -/
def neededFile? (words : List String) : IO (Option ByteArray) :=
  match Command.options words with
  | .ok o => readFile? (o.configPath.getD Config.defaultFile)
  | .error _ => return none

/-- How the program is used. -/
def helpText : String :=
  String.intercalate "\n"
    ["Usage: wcal [OPTIONS]", "",
      "Evaluate EXPR arguments, or start an interactive session if none are given.", "",
      "Use -i and -f between expressions to switch integer and float mode.", "",
      "Options:",
      "  --float           Start in f64 mode",
      "  --config FILE     Configuration file (default: ./wcal.toml)",
      "  --log-level TEXT  Logging level",
      "  --version         Show version",
      "  --help            Show this message and exit."]

end LineCalc.Terminal

open LineCalc Terminal

/-- Carries out a command line. -/
def main (words : List String) : IO UInt32 := do
  let content ← neededFile? words
  match Command.plan words fun _ => content with
  | .start c mode [] =>
    write (Command.shown c.logLevel [Command.starting mode []])
    converse c mode
    return 0
  | plan =>
    let report := plan.report helpText ""
    write report.transcript
    return UInt32.ofNat report.exitCode
