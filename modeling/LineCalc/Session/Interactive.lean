import LineCalc.Session.Line
import LineCalc.Text.Blank

/-!
# Interactive sessions

A session prompts, reads a line, and answers it, until it is told to quit or the
input ends. A line is trimmed first. Some words are commands: they change the mode,
show the help, or quit. Blank lines are passed over, and anything else is evaluated;
whatever it comes to, the session goes on.

A line of the input ends at a newline, at a carriage return, or at the two in that
order together, which counts once. What follows the last line end is a line only if
it is not empty.
-/

namespace LineCalc

namespace Text

/-- The lines of a text whose first line has begun with the given characters, last one first. -/
def linesFrom (begun : List Char) : List Char → List (List Char)
  | [] => if begun.isEmpty then [] else [begun.reverse]
  | '\r' :: '\n' :: rest => begun.reverse :: linesFrom [] rest
  | c :: rest =>
    if c == '\n' || c == '\r' then begun.reverse :: linesFrom [] rest
    else linesFrom (c :: begun) rest

/-- The lines of a text, without their ends. -/
def lines (s : String) : List String := (linesFrom [] s.toList).map String.ofList

end Text

namespace Session

/-- What a line asks for that is not an expression. -/
inductive Directive where
  | enter (mode : Mode)
  | help
  | quit
deriving DecidableEq, Repr

/-- The directive that a trimmed line is. -/
def Directive.ofText? (s : String) : Option Directive :=
  if s = "i" ∨ s = "i128" then some (.enter .integer)
  else if s = "f" ∨ s = "f64" then some (.enter .floating)
  else if s = "q" ∨ s = "quit" then some .quit
  else if s = "h" ∨ s = "help" then some .help
  else none

/-- The help, one command a line. -/
def helpText : String :=
  "i, i128\tEnter i128 mod\nf, f64\tEnter f64 mod\nh, help\tShow this help\nq, quit\tQuit"

/-- What a line is answered with, and the mode to go on in, if the session goes on. -/
structure Reply where
  transcript : Transcript
  next : Option Mode

/-- The reply to a line read in a mode. -/
def respond (c : Config) (mode : Mode) (line : String) : Reply :=
  let text := Text.trim line
  if text.isEmpty then ⟨[], some mode⟩
  else
    match Directive.ofText? text with
    | some (.enter m) => ⟨[.line s!"Enter {m.name} mod"], some m⟩
    | some .help => ⟨[.line helpText], some mode⟩
    | some .quit => ⟨[.line "Bye!"], none⟩
    | none => ⟨(runLine c mode text).transcript, some mode⟩

/-- A prompt, the line read at it, which is none at the end of the input, and the reply. -/
structure Exchange where
  mode : Mode
  line : Option String
  reply : Transcript

/-- The exchanges of a session, and the number of lines it left unread. -/
structure Conversation where
  exchanges : List Exchange
  unread : Nat

/-- A session over lines of input, from a mode. -/
def converse (c : Config) (mode : Mode) : List String → Conversation
  | [] => ⟨[⟨mode, none, [.line ""]⟩], 0⟩
  | line :: rest =>
    let reply := respond c mode line
    let exchange : Exchange := ⟨mode, some line, reply.transcript⟩
    match reply.next with
    | none => ⟨[exchange], rest.length⟩
    | some next =>
      let more := converse c next rest
      ⟨exchange :: more.exchanges, more.unread⟩

/-- The prompt that an exchange begins with. -/
def Exchange.prompt (e : Exchange) : Message := .prompt (Session.prompt e.mode)

/-- All that is written in exchanges. -/
def exchangesTranscript (es : List Exchange) : Transcript :=
  es.flatMap fun e => e.prompt :: e.reply

/--
What is written between one read and the next: first what precedes all reads, then
for each exchange its reply and the prompt of the exchange after it.
-/
def betweenReads : List Exchange → List Transcript
  | [] => [[]]
  | e :: rest =>
    match betweenReads rest with
    | [] => [[e.prompt], e.reply]
    | first :: more => [e.prompt] :: (e.reply ++ first) :: more

/-- All that is written in a session. -/
def Conversation.transcript (s : Conversation) : Transcript := exchangesTranscript s.exchanges

/-- What a session writes between one read and the next. -/
def Conversation.steps (s : Conversation) : List Transcript := betweenReads s.exchanges

end Session

end LineCalc
