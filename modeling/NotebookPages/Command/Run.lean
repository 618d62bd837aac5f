import NotebookPages.Command.Batch
import NotebookPages.Command.Check
import NotebookPages.Command.Configure
import NotebookPages.Command.Generate
import NotebookPages.Command.Info

/-!
A whole run of the program: its arguments are read, the settings loaded, and the command carried out.
-/

namespace NotebookPages.Command

def versionText : Text := Text.line "nbdoc 0.3.0"

structure RunResult where
  files : FileTree
  output : Text
  errors : Text
  code : Nat

def Invocation.run (i : Invocation) (s : Settings) (around : Surroundings) (t : FileTree) : Outcome :=
  match i.request with
  | .convert r => r.run i.verbosity s t around.input
  | .batch r => r.run i.verbosity s around t
  | .fix r => r.run i.verbosity s t
  | .frontmatter r => r.run i.verbosity s t
  | .check r => r.run i.verbosity s t
  | .info r => r.run s t
  | .apidoc r => r.run i.verbosity t
  | .config r => r.run i.verbosity around t

def run (around : Surroundings) (t : FileTree) (line : List Text) : RunResult :=
  match Invocation.read line with
  | .error .version => ⟨t, versionText, [], 0⟩
  | .error (.usage e) => ⟨t, [], Text.line ("error: " ++ e.message), 2⟩
  | .ok i =>
    let (s, report) := loadSettings around t
    let o := i.run s around t
    ⟨o.files, o.output, report ++ o.errors, o.ending.code⟩

end NotebookPages.Command
