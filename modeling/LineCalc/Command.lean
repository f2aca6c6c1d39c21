import LineCalc.Config.Load
import LineCalc.Path
import LineCalc.Release
import LineCalc.Session.Batch
import LineCalc.Session.Interactive

/-!
# The command line

The words of a command line are split into options, which may stand anywhere before
a `--`, and the remaining words in their order. Words that begin with a dash and are
no option are remaining words like any other. What a command line asks for is then
done: a notice first, the version or the help, whatever else is there; otherwise the
configuration is found, and the remaining words are a one-shot run, or, if there are
none, standard input is an interactive session.

The text of the help is made elsewhere, from the names and explanations of the
options, and is taken as it is given.
-/

namespace LineCalc.Command

/-- Why a command line is refused as such. -/
inductive UsageError where
  /-- An option stands last and lacks its value. -/
  | missingValue (option : String)
  /-- A flag was given a value. -/
  | unexpectedValue (option : String)
  /-- There is no file at the path that is to be read. -/
  | noSuchFile (path : String)
deriving DecidableEq, Repr

/-- A usage error as it is told to the user. -/
def UsageError.message : UsageError → String
  | missingValue option => s!"Option '{option}' requires an argument."
  | unexpectedValue option => s!"Option '{option}' does not take a value."
  | noSuchFile path => s!"Invalid value for '--config': File '{path}' does not exist."

/-- What is shown in place of a calculation. -/
inductive Notice where
  | version
  | help
deriving DecidableEq, Repr

/-- The options of a command line, and its remaining words. -/
structure Options where
  floating : Bool := false
  /-- The notice that was asked for, of several the first. -/
  notice : Option Notice := none
  configPath : Option String := none
  logLevel : Option String := none
  words : List String := []
deriving DecidableEq, Repr

/-- The options so far with a notice asked for. -/
def Options.ask (o : Options) (n : Notice) : Options := { o with notice := o.notice.or (some n) }

/-- What an option does to the options so far. -/
inductive Effect where
  | flag (set : Options → Options)
  | valued (set : String → Options → Options)

/-- The effect of the option with a name. -/
def effect? (name : String) : Option Effect :=
  if name = "--float" then some (.flag fun o => { o with floating := true })
  else if name = "--version" then some (.flag (·.ask .version))
  else if name = "--help" then some (.flag (·.ask .help))
  else if name = "--config" then some (.valued fun v o => { o with configPath := some v })
  else if name = "--log-level" then some (.valued fun v o => { o with logLevel := some v })
  else none

/-- A word split at its first equals sign, if it has one. -/
def splitValue (word : String) : String × Option String :=
  let name := word.toList.takeWhile (· != '=')
  match word.toList.drop name.length with
  | [] => (word, none)
  | _ :: value => (String.ofList name, some (String.ofList value))

/-- The options so far with a remaining word added. -/
def Options.addWord (o : Options) (word : String) : Options := { o with words := o.words ++ [word] }

/-- The options of words, after those so far. -/
def Options.read (o : Options) : List String → Except UsageError Options
  | [] => .ok o
  | word :: rest =>
    if word = "--" then .ok { o with words := o.words ++ rest }
    else
      let (name, value) := splitValue word
      match effect? name, value with
      | none, _ => (o.addWord word).read rest
      | some (.flag set), none => (set o).read rest
      | some (.flag _), some _ => .error (.unexpectedValue name)
      | some (.valued set), some v => (set v o).read rest
      | some (.valued set), none =>
        match rest with
        | [] => .error (.missingValue name)
        | v :: rest => (set v o).read rest

/-- The options of a command line. -/
def options (words : List String) : Except UsageError Options := Options.read {} words

/-- Why a command ends before it evaluates anything. -/
inductive Refusal where
  | usage (e : UsageError)
  | config (e : ConfigError)
  /-- The configuration file is not UTF-8. -/
  | undecodable
  /-- The configuration file has a decimal integer of so many digits, which are too many. -/
  | oversized (digits : Nat)
deriving DecidableEq, Repr

namespace Refusal

/-- A refusal as it is told to the user. -/
def message : Refusal → String
  | usage e => e.message
  | config e => e.message
  | undecodable => "Configuration file is not UTF-8"
  | oversized digits => Toml.oversizedMessage digits

/-- What was wrong with single values. -/
def complaints : Refusal → List Complaint
  | config e => e.complaints
  | usage _ | undecodable | oversized _ => []

/-- The exit code of a refusal: 2 for what was foreseen, 1 for a file that cannot be read. -/
def exitCode : Refusal → Nat
  | usage _ | config _ => 2
  | undecodable | oversized _ => 1

/-- What the user is told of a refusal: why, and below it what was wrong with single values. -/
def transcript (why : Refusal) : Transcript :=
  .errorLine (Session.failureText why.message) ::
    why.complaints.map fun c =>
      let path := String.intercalate "." c.path
      .errorLine s!"  {path}: {c.message}"

end Refusal

/-- The refusal that a failed load is. -/
def Refusal.ofLoad : LoadError → Refusal
  | .undecodable => undecodable
  | .oversized digits => oversized digits
  | .config e => config e

/-- The files that a command can see, by path: their bytes. -/
abbrev Files := String → Option ByteArray

/-- The configuration file to read: the one asked for, or the usual one in a directory. -/
def findConfig (asked : Option String) (directory : String) : String :=
  match asked with
  | some path => Path.normal path
  | none => Path.join directory Config.defaultFile

/-- The path and the bytes of the configuration file; one that was asked for has to be there. -/
def configFile (files : Files) (asked : Option String) :
    Except UsageError (String × Option ByteArray) :=
  let path := findConfig asked "."
  match asked with
  | none => .ok (path, files path)
  | some word =>
    match files word with
    | none => .error (.noSuchFile word)
    | some bytes => .ok (path, some bytes)

/-- The configuration that the options and files make. -/
def configuration (files : Files) (o : Options) : Except Refusal Config := do
  let (path, content) ← (configFile files o.configPath).mapError .usage
  let c ← (Config.load path content).mapError .ofLoad
  match o.logLevel with
  | none => pure c
  | some level => (c.withOptions [("log_level", .text level)]).mapError .config

/-- The mode that a command starts in. -/
def startMode (o : Options) (c : Config) : Mode := if o.floating then .floating else c.mode

/-- The text that the version is shown with. -/
def versionText (version : String) : String := s!"{Release.programName} version {version}"

/-- The text of a notice, the help being given. -/
def Notice.text (helpText : String) : Notice → String
  | version => versionText Release.current
  | help => helpText

/-- The log as far as a level lets it show. -/
def shown (level : LogLevel) (t : Transcript) : Transcript :=
  if level = .debug then t else t.withoutLog

/-- What a command line asks for. -/
inductive Plan where
  /-- A notice is shown. -/
  | show (notice : Notice)
  /-- Nothing is done. -/
  | refuse (why : Refusal)
  /-- Words are evaluated, or standard input if there are none. -/
  | start (config : Config) (mode : Mode) (words : List String)

/-- What options ask for. -/
def Options.plan (o : Options) (files : Files) : Plan :=
  match o.notice with
  | some n => .show n
  | none =>
    match configuration files o with
    | .error why => .refuse why
    | .ok c => .start c (startMode o c) o.words

/-- What a command line asks for. -/
def plan (words : List String) (files : Files) : Plan :=
  match options words with
  | .error e => .refuse (.usage e)
  | .ok o => o.plan files

/-- What a command wrote before it ended, and its exit code. -/
structure Report where
  transcript : Transcript
  exitCode : Nat

/-- The log entry with which a calculation starts. -/
def starting (mode : Mode) (words : List String) : Message := .log (.starting mode words.length)

/-- What a calculation comes to: a one-shot run over words, or a session over standard input. -/
def calculate (c : Config) (mode : Mode) (words : List String) (stdin : String) : Report :=
  match words with
  | [] => ⟨(Session.converse c mode (Text.lines stdin)).transcript, 0⟩
  | words =>
    let batch := Session.runBatch c mode words
    ⟨batch.transcript, batch.exitCode⟩

/-- What a plan comes to, unless it is to refuse. -/
def Plan.perform (helpText stdin : String) : Plan → Except Refusal Report
  | .show n => .ok ⟨[.line (n.text helpText)], 0⟩
  | refuse why => .error why
  | start c mode words =>
    let report := calculate c mode words stdin
    .ok ⟨shown c.logLevel (starting mode words :: report.transcript), report.exitCode⟩

/-- What a plan comes to; of a refusal the user is told. -/
def Plan.report (helpText stdin : String) (p : Plan) : Report :=
  match p.perform helpText stdin with
  | .ok report => report
  | .error why => ⟨why.transcript, why.exitCode⟩

variable (helpText : String) (words : List String) (files : Files) (stdin : String)

/-- What a command line comes to, with files and standard input, unless it is refused. -/
def perform : Except Refusal Report := (plan words files).perform helpText stdin

/-- What a command line comes to, with files and standard input. -/
def run : Report := (plan words files).report helpText stdin

end LineCalc.Command
