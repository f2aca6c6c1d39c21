import LineCalc.Toml.Document

/-!
# The release

The version is looked up where the program was built, in the `version` of the
`project` table of its manifest, if the manifest is this program's own; else it is
the version that was installed; else it is unknown.
-/

namespace LineCalc.Release

/-- The name of the program. -/
def programName : String := "wcal"

/-- The version of this release. -/
def current : String := "0.3.0"

/-- The version when nothing is known. -/
def unknown : String := "0.0.0"

/-- Why a manifest tells nothing. -/
inductive ManifestError where
  /-- Reading it comes to an error. -/
  | unreadable (e : Toml.ReadError)
  /-- What stands for the `project` table is a value of another kind. -/
  | notTable (kind : String)
deriving DecidableEq, Repr

/-- A manifest error as it is told to the user. -/
def ManifestError.message : ManifestError → String
  | unreadable .malformed => "Invalid TOML"
  | unreadable (.oversized digits) => Toml.oversizedMessage digits
  | notTable kind => s!"'{kind}' object has no attribute 'get'"

/-- The version in a project table, if the project is this program and has one. -/
def ofProject? (project : Table) : Option String :=
  match project.get? "name", project.get? "version" with
  | some (.text name), some version => if name = programName then some version.plain else none
  | _, _ => none

/-- The version in a manifest, if it is this program's and has one. -/
def ofManifest (manifest : Table) : Except ManifestError (Option String) :=
  match manifest.get? "project" with
  | none => .ok none
  | some (.table project) => .ok (ofProject? project)
  | some other => .error (.notTable other.kindName)

/-- The version, from the text of a manifest and from what was installed. -/
def version (manifest installed : Option String) : Except ManifestError String :=
  let installed := installed.getD unknown
  match manifest with
  | none => .ok installed
  | some text =>
    match Toml.read text with
    | .error e => .error (.unreadable e)
    | .ok t => (ofManifest t).map (·.getD installed)

end LineCalc.Release
