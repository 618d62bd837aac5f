import NotebookPages.Page.Convert
import NotebookPages.Storage.FileTree
import NotebookPages.Text.Failure

/-!
Pages from source files. Notebooks may hold any bytes, while Markdown documents have to be texts.
-/

namespace NotebookPages

inductive SourceError where
  | unsupported (source : Path)
  | unreadable (e : StorageError)
  | malformed (e : NotebookError)
  deriving DecidableEq, Repr

def unsupportedMessage (source : Path) : Text := "Unsupported input format: " ++ source

/-- A cause that only wraps another is shown as well. -/
def SourceError.failure : SourceError → Failure
  | unsupported source => ⟨unsupportedMessage source, []⟩
  | unreadable e => ⟨"IO error: " ++ e.message, [e.message]⟩
  | malformed e => ⟨e.message, [e.message]⟩

namespace Page

def ofFile (o : PageOptions) (t : FileTree) (destination source : Path) : Except SourceError Page :=
  match SourceFormat.ofPath? source with
  | none => .error (.unsupported source)
  | some .notebook =>
    match t.readBytes source with
    | .ok bytes => (ofBytes o destination bytes).mapError .malformed
    | .error e => .error (.unreadable e)
  | some .markdown =>
    match t.readText source with
    | .ok text => .ok (ofMarkdown o destination text)
    | .error e => .error (.unreadable e)

end Page
end NotebookPages
