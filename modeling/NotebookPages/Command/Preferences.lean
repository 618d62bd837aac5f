import NotebookPages.Command.Outcome
import NotebookPages.Settings.File

/-!
The settings of a run: those of the user and those of the project, each from a file that may be absent.
A file that cannot be used is reported and left out.
-/

namespace NotebookPages.Command

def userSettingsPath (s : Surroundings) : Option Path := s.home.map (Path.join · Settings.fileName)

def projectSettingsPath : Path := Settings.fileName

inductive SettingsError where
  | unreadable
  | undecodable
  deriving DecidableEq, Repr

/-- The explanation that comes before the warning about a file that cannot be decoded. -/
def syntaxHelp (p : Path) : Text :=
  [("Error: Failed to parse config file: " ++ p : Text),
    "Parse error: <decode error>",
    "",
    "Help: Configuration file syntax:",
    "  [convert]",
    "  dialect = \"mdx\"       # mdx or markdown",
    "  output_dir = \"docs\"",
    "",
    "  Run 'nbdoc config init' to write a commented template"].flatMap Text.line

def SettingsError.report (e : SettingsError) (scope : Text) (p : Path) : Text :=
  let warning (cause : Text) : Text :=
    Text.line ("Warning: Failed to load " ++ scope ++ " config from " ++ p ++ ": " ++ cause)
  match e with
  | unreadable => warning ("Failed to read config file: " ++ p)
  | undecodable => syntaxHelp p ++ warning "Failed to parse config file: <decode error>"

def readSettings (t : FileTree) (p : Path) : Except SettingsError (Option Settings) :=
  if t.contains p then
    match t.readText p with
    | .error _ => .error .unreadable
    | .ok text =>
      match Settings.read? text with
      | some s => .ok (some s)
      | none => .error .undecodable
  else .ok none

def loadLayer (t : FileTree) (scope : Text) (p : Path) : Option Settings × Text :=
  match readSettings t p with
  | .ok layer => (layer, [])
  | .error e => (none, e.report scope p)

def loadSettings (s : Surroundings) (t : FileTree) : Settings × Text :=
  let (user, userReport) := match userSettingsPath s with
    | some p => loadLayer t "user" p
    | none => (none, [])
  let (project, projectReport) := loadLayer t "project" projectSettingsPath
  (Settings.merge user project, userReport ++ projectReport)

end NotebookPages.Command
