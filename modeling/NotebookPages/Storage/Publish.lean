import NotebookPages.Storage.FileTree
import NotebookPages.Text.Failure

/-!
Writing pages. A page never goes over its own source, over an existing file only where that is asked
for, and a copy of what it replaces can be kept beside it.
-/

namespace NotebookPages

inductive Refusal where
  | destinationExists
  | sameAsSource
  | duplicate
  | earlierFailure
  deriving DecidableEq, Repr

def Refusal.message : Refusal → Text
  | destinationExists => "output exists (use --force to overwrite)"
  | sameAsSource => "output would overwrite the input (use 'nbdoc fix' instead)"
  | duplicate => "another input already writes this output"
  | earlierFailure => "previous error"

inductive PublishError where
  | directory (p : Path) (e : StorageError)
  | backup (p : Path) (e : StorageError)
  | page (p : Path) (e : StorageError)
  deriving DecidableEq, Repr

def PublishError.failure : PublishError → Failure
  | directory p e => ⟨"Failed to create directory: " ++ p, [e.message]⟩
  | backup p e => ⟨"Failed to write backup: " ++ p, [e.message]⟩
  | page p e => ⟨"Failed to write output file: " ++ p, [e.message]⟩

namespace FileTree

def refusal? (t : FileTree) (force : Bool) (source destination : Path) : Option Refusal :=
  if t.sameFile source destination then some .sameAsSource
  else if t.contains destination && !force then some .destinationExists
  else none

def prepare (t : FileTree) (p : Path) : FileTree × Except PublishError Unit :=
  match (Path.parent? p).filter (!·.isEmpty) with
  | none => (t, .ok ())
  | some parent =>
    match t.makeDirectories parent with
    | (t, none) => (t, .ok ())
    | (t, some e) => (t, .error (.directory parent e))

def keepBackup (t : FileTree) (p : Path) : FileTree × Except PublishError (Option Path) :=
  if t.contains p then
    let target := Path.backup p
    match t.copy p target with
    | .ok t => (t, .ok (some target))
    | .error e => (t, .error (.backup target e))
  else (t, .ok none)

/-- Write a page, after a copy of what it replaces if `backup` asks for one; the result is the path of
the copy. What was created stays when a later step fails. -/
def publish (t : FileTree) (backup : Bool) (p : Path) (content : Text) :
    FileTree × Except PublishError (Option Path) :=
  match t.prepare p with
  | (t, .error e) => (t, .error e)
  | (t, .ok ()) =>
    match if backup then t.keepBackup p else (t, .ok none) with
    | (t, .error e) => (t, .error e)
    | (t, .ok kept) =>
      match t.write p (Text.encode content) with
      | .ok t => (t, .ok kept)
      | .error e => (t, .error (.page p e))

end FileTree
end NotebookPages
