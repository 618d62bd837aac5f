import NotebookPages.Json.Value
import NotebookPages.Text.Vocabulary

/-!
A notebook: metadata and a list of cells. The code cells carry the outputs of their last run.
-/

namespace NotebookPages

/-- Representations of one value by MIME type, in ascending order of the types. -/
structure MimeBundle where
  items : List (Text × Text)
  deriving DecidableEq, Repr

namespace MimeBundle

def get? (b : MimeBundle) (mime : Text) : Option Text := b.items.lookup mime

def mimes (b : MimeBundle) : List Text := b.items.map Prod.fst

end MimeBundle

inductive Output where
  | stream (name text : Text)
  | executeResult (executionCount : Option Int) (data : MimeBundle)
  | displayData (data : MimeBundle)
  | error (name value : Text) (traceback : List Text)
  | unknown
  deriving DecidableEq, Repr

inductive Cell where
  | markdown (id : Option Text) (source : Text)
  | code (id : Option Text) (source : Text) (executionCount : Option Int) (outputs : List Output)
  | raw (id : Option Text) (source : Text)
  | unsupported (kind : Text)
  deriving DecidableEq, Repr

structure Metadata where
  title : Option Text := none
  description : Option Text := none
  language : Option Text := none
  kernelName : Option Text := none
  authors : List Text := []
  keys : List Text := []
  deriving DecidableEq, Repr

structure Notebook where
  major : Nat
  minor : Nat
  metadata : Metadata
  cells : List Cell
  deriving DecidableEq, Repr

namespace Notebook

/-- A text as the only cell of a notebook. -/
def ofMarkdown (text : Text) : Notebook := ⟨4, 5, {}, [.markdown none text]⟩

def markdownSources (n : Notebook) : List Text :=
  n.cells.filterMap fun
    | .markdown _ source => some source
    | _ => none

end Notebook

inductive CellKind where
  | code
  | markdown
  | raw
  deriving DecidableEq, Repr

namespace CellKind

def name : CellKind → Text
  | code => "code"
  | markdown => "markdown"
  | raw => "raw"

def parse (name : Text) : Except UnknownName CellKind :=
  match [("code", code), ("markdown", markdown), ("md", markdown), ("raw", raw), ("text", raw)].lookup
      (String.ofList (Text.lower name)) with
  | some kind => .ok kind
  | none => .error ⟨"cell type", name, ["code", "markdown", "raw"]⟩

end CellKind

inductive OutputKind where
  | stream
  | displayData
  | executeResult
  | error
  deriving DecidableEq, Repr

namespace OutputKind

def name : OutputKind → Text
  | stream => "stream"
  | displayData => "display_data"
  | executeResult => "execute_result"
  | error => "error"

def spellings : List (String × OutputKind) := [
  ("stream", stream), ("stdout", stream), ("stderr", stream),
  ("display_data", displayData), ("displaydata", displayData), ("display", displayData),
  ("execute_result", executeResult), ("executeresult", executeResult), ("result", executeResult),
  ("error", error), ("traceback", error)]

/-- Dashes count as underscores. -/
def parse (name : Text) : Except UnknownName OutputKind :=
  let key := (Text.lower name).map fun c => if c == '-' then '_' else c
  match spellings.lookup (String.ofList key) with
  | some kind => .ok kind
  | none =>
    .error ⟨"output type", name, ["stream", "display_data", "execute_result", "error"]⟩

end OutputKind

def Cell.kind? : Cell → Option CellKind
  | .markdown .. => some .markdown
  | .code .. => some .code
  | .raw .. => some .raw
  | .unsupported _ => none

def Output.kind? : Output → Option OutputKind
  | .stream .. => some .stream
  | .executeResult .. => some .executeResult
  | .displayData _ => some .displayData
  | .error .. => some .error
  | .unknown => none

end NotebookPages
