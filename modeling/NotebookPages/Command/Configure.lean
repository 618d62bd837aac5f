import NotebookPages.Command.Preferences

/-!
The commands about settings: writing a new file, showing what is in effect, and telling where the files
are.
-/

namespace NotebookPages.Command

namespace SettingsRequest

def createFile (t : FileTree) (v : Verbosity) (p : Path) (force : Bool) : Outcome :=
  if t.contains p && !force then
    { files := t
      status := Text.line ("Error: Configuration file already exists: " ++ p) ++
        Text.line "Hint: Use --force to overwrite"
      ending := .rejected }
  else match t.write p (Text.encode Settings.template) with
    | .error e =>
      { files := t, ending := .failed ⟨"Failed to write config file: " ++ p, [e.message]⟩ }
    | .ok t =>
      { files := t
        output := onlyIf v.showsStatus
          (Text.line ("Success: Created configuration file: " ++ p)) }

def displayText (s : Settings) (json : Bool) : Text :=
  Text.line (if json then Json.pretty s.toJson else s.print)

def allPaths (around : Surroundings) (t : FileTree) : Text :=
  let entry (label : Text) (p : Path) : Text :=
    let state : Text := if t.contains p then "exists" else "not found"
    Text.line ("  " ++ label ++ " " ++ p ++ " (" ++ state ++ ")")
  Text.line "Configuration file paths:" ++ Text.line "" ++
    ((userSettingsPath around).map (entry "User:")).getD [] ++ entry "Project:" projectSettingsPath

/-- The file that counts: the project's if it is there, else the user's, else the one to create. -/
def effectivePath (around : Surroundings) (t : FileTree) : Path :=
  if t.contains projectSettingsPath then projectSettingsPath
  else ((userSettingsPath around).filter t.contains).getD projectSettingsPath

def run (r : SettingsRequest) (v : Verbosity) (around : Surroundings) (t : FileTree) : Outcome :=
  match r with
  | create false force => createFile t v projectSettingsPath force
  | create true force =>
    match userSettingsPath around with
    | some p => createFile t v p force
    | none => { files := t, ending := .failed ⟨"Could not determine home directory", []⟩ }
  | display json =>
    let (s, report) := loadSettings around t
    { files := t, output := displayText s json, status := report }
  | locate true => { files := t, output := allPaths around t }
  | locate false => { files := t, output := Text.line (effectivePath around t) }

end SettingsRequest
end NotebookPages.Command
