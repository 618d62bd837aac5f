import NotebookPages.Command.Preferences
import NotebookPages.Storage.Publish

/-!
The commands that change pages in place: one makes their bodies safe, the other gives them headers.
-/

namespace NotebookPages.Command

def unreadable (p : Path) (e : StorageError) : Failure := ⟨"Failed to read " ++ p, [e.message]⟩

inductive Change (α : Type) where
  | unchanged
  | changed (what : α)
  | failed (f : Failure)
  deriving DecidableEq, Repr

namespace Change

def isChanged : Change α → Bool
  | changed _ => true
  | _ => false

def isFailed : Change α → Bool
  | failed _ => true
  | _ => false

def isUnchanged : Change α → Bool
  | unchanged => true
  | _ => false

end Change

/-- Replace the text of a page where `edit?` has another one for it. -/
def editPage (dryRun backup : Bool) (edit? : Text → Option (Text × α)) (t : FileTree) (p : Path) :
    FileTree × Change α :=
  match t.readText p with
  | .error e => (t, .failed (unreadable p e))
  | .ok text =>
    match edit? text with
    | none => (t, .unchanged)
    | some (edited, what) =>
      if dryRun then (t, .changed what)
      else match t.publish backup p edited with
        | (t, .ok _) => (t, .changed what)
        | (t, .error e) => (t, .failed e.failure)

def failureLine (p : Path) (f : Failure) : Text := Text.line ("✗ " ++ p ++ " - " ++ f.inline)

def countsLine (changed unchanged : Text) (results : List (Path × Change α)) : Text :=
  Text.line ("Info: " ++ Text.ofNat (results.countP (·.2.isChanged)) ++ " " ++ changed ++ ", " ++
    Text.ofNat (results.countP (·.2.isUnchanged)) ++ " " ++ unchanged ++ ", " ++
    Text.ofNat (results.countP (·.2.isFailed)) ++ " failed")

def changesOutcome (v : Verbosity) (t : FileTree) (told counts verb : Text)
    (results : List (Path × Change α)) : Outcome :=
  let failed := results.countP (·.2.isFailed)
  { files := t
    status := told ++ onlyIf v.showsStatus counts
    ending :=
      if failed = 0 then .success
      else .failed ⟨Text.ofNat failed ++ " of " ++ Text.ofNat results.length ++
        " files could not be " ++ verb, []⟩ }

namespace FixRequest

/-- The repaired text of a page and what was repaired, unless it needs no repair. -/
def repair? (r : FixRequest) (s : Settings) (p : Path) (text : Text) : Option (Text × Report) :=
  let (repaired, report) :=
    Document.fix (s.pageOptions (pageDialect r.dialect p) none).rules text
  if repaired = text then none else some (repaired, report)

def fixPage (r : FixRequest) (s : Settings) (t : FileTree) (p : Path) : FileTree × Change Report :=
  editPage r.dryRun r.backup (r.repair? s p) t p

def pageText (r : FixRequest) (v : Verbosity) : Path × Change Report → Text
  | (p, .unchanged) => onlyIf v.isVerbose (Text.line ("✓ " ++ p ++ " (no changes)"))
  | (p, .changed report) =>
    let verb : Text := if r.dryRun then "Would fix " else "Fixed "
    onlyIf v.showsStatus (Text.line ("✓ " ++ verb ++ p ++ " (" ++ report.summary ++ ")"))
  | (p, .failed f) => failureLine p f

def run (r : FixRequest) (v : Verbosity) (s : Settings) (t : FileTree) : Outcome :=
  match pages t r.inputs with
  | .error e => e.outcome t
  | .ok files =>
    let (t, results) := forEach (r.fixPage s) t files
    changesOutcome v t (results.flatMap (r.pageText v)) (countsLine "fixed" "unchanged" results)
      "fixed" results

end FixRequest

namespace HeaderRequest

def addHeader (r : HeaderRequest) (s : Settings) (t : FileTree) (p : Path) :
    FileTree × Change Unit :=
  let rules := (s.pageOptions .mdx none).description
  editPage r.dryRun false (fun text => (Document.addHeader? rules p text).map (·, ())) t p

def pageText (r : HeaderRequest) (v : Verbosity) : Path × Change Unit → Text
  | (p, .unchanged) => onlyIf v.isVerbose (Text.line ("Skip: " ++ p ++ " already has frontmatter"))
  | (p, .changed _) =>
    let verb : Text := if r.dryRun then "Would add" else "Added"
    onlyIf v.showsStatus (Text.line ("✓ " ++ verb ++ " frontmatter to " ++ p))
  | (p, .failed f) => failureLine p f

def run (r : HeaderRequest) (v : Verbosity) (s : Settings) (t : FileTree) : Outcome :=
  match pages t r.inputs with
  | .error e => e.outcome t
  | .ok files =>
    let (t, results) := forEach (r.addHeader s) t files
    changesOutcome v t (results.flatMap (r.pageText v))
      (countsLine "updated" "already had frontmatter" results) "updated" results

end HeaderRequest
end NotebookPages.Command
