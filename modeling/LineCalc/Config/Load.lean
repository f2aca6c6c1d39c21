import LineCalc.Config.Basic
import LineCalc.Toml.Document

/-!
# Configuration files

A configuration file is a TOML document, and the configuration is its section
`wcal`. Without a file, without the section, or with a section that is empty,
everything has its default. Two files are no configuration and are told apart from a
text that cannot be one: a file whose bytes are not UTF-8 has no text at all, and a
text may hold a decimal integer with too many digits to be turned into a number.
-/

namespace LineCalc

/-- Why there is no configuration. -/
inductive ConfigError where
  /-- The file at a path is not TOML. -/
  | malformed (path : String)
  /-- The file at a path holds values that cannot be. -/
  | invalid (path : String) (complaints : List Complaint)
  /-- An option on the command line cannot be. -/
  | invalidOption (complaints : List Complaint)
deriving DecidableEq, Repr

namespace ConfigError

/-- The sort of error, in a few words. -/
def headline : ConfigError → String
  | malformed _ => "Invalid TOML"
  | invalid .. => "Invalid configuration"
  | invalidOption _ => "Invalid command-line option"

/-- The error as it is told to the user, without its details. -/
def message (e : ConfigError) : String :=
  match e with
  | malformed path | invalid path _ => s!"{e.headline} in {path}"
  | invalidOption _ => e.headline

/-- What was wrong with single values. -/
def complaints : ConfigError → List Complaint
  | invalid _ cs | invalidOption cs => cs
  | malformed _ => []

end ConfigError

/-- Why the bytes of a file are no configuration. -/
inductive LoadError where
  /-- They are not UTF-8. -/
  | undecodable
  /-- They are a text with a decimal integer of so many digits, which are too many. -/
  | oversized (digits : Nat)
  /-- They are a text that is no configuration. -/
  | config (e : ConfigError)
deriving DecidableEq, Repr

namespace Config

/-- The name of the section that is read. -/
def sectionName : String := "wcal"

/-- The configuration file that is read when no other is named. -/
def defaultFile : String := "wcal.toml"

/-- The configuration in a document, or in none. -/
def ofDocument (path : String) (t : Table) : Except ConfigError Config :=
  match t.get? sectionName with
  | none => .ok {}
  | some value => if value.isFalsy then .ok {} else (ofDatum value).mapError (.invalid path)

/-- The configuration that the text of a file describes. -/
def ofText (path text : String) : Except LoadError Config :=
  match Toml.read text with
  | .error .malformed => .error (.config (.malformed path))
  | .error (.oversized digits) => .error (.oversized digits)
  | .ok t => (ofDocument path t).mapError .config

/-- The configuration that the bytes of a file describe, or the defaults if there is no file. -/
def load (path : String) (content : Option ByteArray) : Except LoadError Config :=
  match content with
  | none => .ok {}
  | some bytes =>
    match String.fromUTF8? bytes with
    | none => .error .undecodable
    | some text => ofText path text

/-- A configuration with some fields replaced by options of the command line. -/
def withOptions (c : Config) (changes : Table) : Except ConfigError Config :=
  (c.override changes).mapError .invalidOption

/-- A configuration after some options: changed by them, or kept if they cannot be. -/
def afterOptions (c : Config) (changes : Table) : Config :=
  (c.withOptions changes).toOption.getD c

/-- What comes of several sets of options one after another, with the configuration after each. -/
def session (c : Config) : List Table → List (Except ConfigError Config × Config)
  | [] => []
  | changes :: rest =>
    let after := c.afterOptions changes
    (c.withOptions changes, after) :: after.session rest

end Config

end LineCalc
