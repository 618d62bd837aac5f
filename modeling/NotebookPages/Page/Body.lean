import NotebookPages.Page.Options
import NotebookPages.Text.Terminal

/-!
The body of a page. Every cell becomes a list of blocks and is counted; blocks stand in the order of the
cells with one blank line in between. Images are named and never shown.
-/

namespace NotebookPages

structure Stats where
  markdownCells : Nat := 0
  codeCells : Nat := 0
  rawCells : Nat := 0
  emptyCells : Nat := 0
  unsupportedCells : Nat := 0
  outputsRendered : Nat := 0
  outputsSkipped : Nat := 0
  imagePlaceholders : Nat := 0
  sanitizer : Report := {}
  deriving DecidableEq, Repr

namespace Stats

def add (a b : Stats) : Stats where
  markdownCells := a.markdownCells + b.markdownCells
  codeCells := a.codeCells + b.codeCells
  rawCells := a.rawCells + b.rawCells
  emptyCells := a.emptyCells + b.emptyCells
  unsupportedCells := a.unsupportedCells + b.unsupportedCells
  outputsRendered := a.outputsRendered + b.outputsRendered
  outputsSkipped := a.outputsSkipped + b.outputsSkipped
  imagePlaceholders := a.imagePlaceholders + b.imagePlaceholders
  sanitizer := a.sanitizer + b.sanitizer

instance : Add Stats := ⟨add⟩

def renderedCells (s : Stats) : Nat := s.markdownCells + s.codeCells + s.rawCells

end Stats

namespace Page

def imageLabel (mime : Text) : Text :=
  let format := (Text.after? "image/" mime).getD mime
  if format = ("jpeg" : Text) ∨ format = ("jpg" : Text) then "JPEG"
  else Text.upper (format.takeWhile fun c => c != '+' && c != ';')

def imagePlaceholder (d : Dialect) (mime : Text) : Text :=
  let note : Text := imageLabel mime ++ " data) - please save and reference manually"
  match d with
  | .mdx => ":::note Output\nImage output (" ++ note ++ "\n:::"
  | .markdown => "> **Output:** Image output (" ++ note

structure Blocks where
  blocks : List Text
  stats : Stats
  deriving DecidableEq, Repr

namespace Blocks

def empty : Blocks := ⟨[], {}⟩

def append (a b : Blocks) : Blocks := ⟨a.blocks ++ b.blocks, a.stats + b.stats⟩

instance : Append Blocks := ⟨append⟩

def concat (parts : List Blocks) : Blocks := parts.foldr append empty

end Blocks

def blockUnlessBlank (info text : Text) : List Text :=
  if Text.allBlank text then [] else [Fence.block info text]

def isImage (mime : Text) : Bool := Text.startsWith mime "image/"

/-- Plain text first, then a note for each image, then HTML. -/
def ofBundle (d : Dialect) (b : MimeBundle) : List Text :=
  blockUnlessBlank [] (Text.plain ((b.get? "text/plain").getD []))
    ++ (b.mimes.filter isImage).map (imagePlaceholder d)
    ++ blockUnlessBlank "html" ((b.get? "text/html").getD [])

def ofOutput (d : Dialect) : Output → List Text
  | .stream _ text => blockUnlessBlank [] (Text.plain text)
  | .executeResult _ data => ofBundle d data
  | .displayData data => ofBundle d data
  | .error name value traceback =>
    let body := if traceback.isEmpty then name ++ ": " ++ value
      else Text.plain (Text.joinWith "\n" traceback)
    [Fence.block "python" ("# Error:\n" ++ body)]
  | .unknown => []

def outputImages : Output → Nat
  | .executeResult _ data => data.mimes.countP isImage
  | .displayData data => data.mimes.countP isImage
  | _ => 0

def renderOutput (d : Dialect) (o : Output) : Blocks :=
  let blocks := ofOutput d o
  { blocks
    stats := {
      outputsRendered := if blocks.isEmpty then 0 else 1
      outputsSkipped := if blocks.isEmpty then 1 else 0
      imagePlaceholders := outputImages o } }

/-- Prose without the line ends before it and the blanks after it. -/
def trimProse (text : Text) : Text :=
  Text.trimEnd (text.dropWhile fun c => c == '\n' || c == '\r')

def emptyCell : Blocks := ⟨[], { emptyCells := 1 }⟩

def renderCell (o : PageOptions) (language : Text) : Cell → Blocks
  | .markdown _ source =>
    if Text.allBlank source then emptyCell
    else
      let (text, report) := Markup.sanitizeReport o.rules source
      ⟨[trimProse text], { markdownCells := 1, sanitizer := report }⟩
  | .code _ source _ outputs =>
    if Text.allBlank source ∧ outputs.isEmpty then emptyCell
    else
      ⟨blockUnlessBlank language source, { codeCells := 1 }⟩
        ++ Blocks.concat (outputs.map (renderOutput o.dialect))
  | .raw _ source =>
    if Text.allBlank source then emptyCell
    else ⟨[Fence.block [] source], { rawCells := 1 }⟩
  | .unsupported _ => ⟨[], { unsupportedCells := 1 }⟩

def language (o : PageOptions) (m : Metadata) : Text :=
  Text.lower (Text.trim ((Notebook.present? m.language).getD o.defaultLanguage))

/-- Blocks with a blank line in between and a line end after the last. -/
def layOut (blocks : List Text) : Text :=
  let body := Text.joinWith "\n\n" blocks
  if body.isEmpty then [] else Text.line body

def renderBody (o : PageOptions) (n : Notebook) : Text × Stats :=
  let cells := Blocks.concat (n.cells.map (renderCell o (language o n.metadata)))
  (layOut cells.blocks, cells.stats)

end Page
end NotebookPages
