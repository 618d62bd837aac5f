import NotebookPages.Command.Request
import NotebookPages.Storage.Search
import NotebookPages.Text.Failure

/-!
What a run finds and what it leaves. A run that fails reports the failure last.
-/

namespace NotebookPages.Command

structure Surroundings where
  home : Option Path := none
  input : Bytes := []
  /-- How many workers a batch has when nothing says otherwise. -/
  cores : Nat := 1

inductive Ending where
  | success
  | failed (f : Failure)
  | rejected
  deriving DecidableEq, Repr

structure Outcome where
  files : FileTree
  output : Text := []
  status : Text := []
  ending : Ending := .success

def Ending.code : Ending → Nat
  | success => 0
  | failed _ => 1
  | rejected => 1

def Ending.text : Ending → Text
  | failed f => Text.line ("Error: " ++ f.report)
  | _ => []

namespace Outcome

def errors (o : Outcome) : Text := o.status ++ o.ending.text

def announced (t : FileTree) (message : Text) (more : Text) : Outcome where
  files := t
  status := Text.line ("Error: " ++ message) ++ more
  ending := .failed ⟨message, []⟩

end Outcome

def onlyIf (shown : Bool) (text : Text) : Text := if shown then text else []

def missingMessage (source : Path) : Text := "Input file not found: " ++ source

inductive NoFiles where
  | invalid (e : InvalidPattern)
  | noInputs
  | noPages
  deriving DecidableEq, Repr

def NoFiles.outcome (t : FileTree) : NoFiles → Outcome
  | invalid e =>
    { files := t, ending := .failed ⟨"Invalid glob pattern: " ++ e.pattern, [e.error.message]⟩ }
  | noInputs => .announced t "No input files found" []
  | noPages => .announced t "No Markdown or MDX files found" []

def sources (t : FileTree) (inputs : List Path) : Except NoFiles (List Path) :=
  match t.expand inputs with
  | .error e => .error (.invalid e)
  | .ok [] => .error .noInputs
  | .ok files => .ok files

def pages (t : FileTree) (inputs : List Path) : Except NoFiles (List Path) := do
  match (← sources t inputs).filter (SourceFormat.ofPath? · ≠ some .notebook) with
  | [] => .error .noPages
  | files => .ok files

/-- The dialect that is asked for, else the one that the extension of a page implies. -/
def pageDialect (given : Option Dialect) (p : Path) : Dialect :=
  match given with
  | some d => d
  | none =>
    match (Path.extension? p).map Text.lower with
    | some extension => if extension = "md" ∨ extension = "markdown" then .markdown else .mdx
    | none => .mdx

def shortName (p : Path) : Text := (Path.fileName? p).getD p

/-- Treat the paths one after another, each in the files that the ones before it left. -/
def forEach (f : FileTree → α → FileTree × β) (t : FileTree) : List α → FileTree × List (α × β)
  | [] => (t, [])
  | a :: rest =>
    let (t, b) := f t a
    let (t, more) := forEach f t rest
    (t, (a, b) :: more)

end NotebookPages.Command
