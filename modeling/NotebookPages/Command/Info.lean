import NotebookPages.Command.Repair
import NotebookPages.Storage.Source

/-!
The command that describes a source file and the page it would become.
-/

namespace NotebookPages.Command

structure CellCounts where
  total : Nat
  markdown : Nat
  code : Nat
  raw : Nat
  unsupported : Nat
  deriving DecidableEq, Repr

structure SourceInfo where
  path : Path
  format : SourceFormat
  title : Text
  description : Text
  language : Option Text
  kernel : Option Text
  authors : List Text
  major : Nat
  minor : Nat
  cells : CellCounts
  outputs : List (Option OutputKind)
  imagePlaceholders : Nat
  destination : Path
  deriving DecidableEq, Repr

def CellCounts.ofCells (cells : List Cell) : CellCounts where
  total := cells.length
  markdown := cells.countP (·.kind? == some .markdown)
  code := cells.countP (·.kind? == some .code)
  raw := cells.countP (·.kind? == some .raw)
  unsupported := cells.countP (·.kind?.isNone)

def cellOutputs (cells : List Cell) : List Output :=
  cells.flatMap fun
    | .code _ _ _ outputs => outputs
    | _ => []

def readNotebook (t : FileTree) (p : Path) : SourceFormat → Except Failure Notebook
  | .notebook =>
    let context : Text := "Failed to read notebook " ++ p
    match t.readBytes p with
    | .error e => .error ⟨context, ["Failed to read notebook file: " ++ e.message, e.message]⟩
    | .ok bytes => (Notebook.decode bytes).mapError fun e => ⟨context, [e.message]⟩
  | .markdown =>
    match t.readText p with
    | .error e => .error (unreadable p e)
    | .ok text => .ok (Notebook.ofMarkdown text)

def describe (s : Settings) (t : FileTree) (p : Path) : Except Failure SourceInfo :=
  match SourceFormat.ofPath? p with
  | none => .error ⟨unsupportedMessage p, []⟩
  | some format => do
    let n ← readNotebook t p format
    let d ← (s.resolveDialect none).mapError fun e => ⟨Settings.dialectMessage e, []⟩
    let page := Page.ofNotebook (s.pageOptions d none)
      (Page.outputPath d (s.resolveOutputDir none) p) n
    return {
      path := p
      format
      title := page.title
      description := page.description
      language := n.metadata.language
      kernel := n.metadata.kernelName
      authors := n.metadata.authors
      major := n.major
      minor := n.minor
      cells := .ofCells n.cells
      outputs := (cellOutputs n.cells).map Output.kind?
      imagePlaceholders := page.stats.imagePlaceholders
      destination := page.path }

namespace SourceInfo

def version (i : SourceInfo) : Text := Text.ofNat i.major ++ "." ++ Text.ofNat i.minor

def outputCounts (i : SourceInfo) : List (Text × Nat) :=
  let kinds : List (Text × Option OutputKind) := [
    ("display_data", some .displayData),
    ("error", some .error),
    ("execute_result", some .executeResult),
    ("stream", some .stream),
    ("unknown", none)]
  (kinds.map fun (name, kind) => (name, i.outputs.count kind)).filter (·.2 ≠ 0)

def toJson (i : SourceInfo) : Json :=
  let text? (t : Option Text) : Json := (t.map Json.string).getD .null
  let natural (n : Nat) : Json := .integer n
  .object [
    ("path", .string i.path),
    ("format", .string i.format.name),
    ("title", .string i.title),
    ("description", .string i.description),
    ("language", text? i.language),
    ("kernel", text? i.kernel),
    ("authors", .array (i.authors.map .string)),
    ("nbformat", .string i.version),
    ("cells", .object [
      ("total", natural i.cells.total),
      ("markdown", natural i.cells.markdown),
      ("code", natural i.cells.code),
      ("raw", natural i.cells.raw),
      ("unsupported", natural i.cells.unsupported)]),
    ("outputs", natural i.outputs.length),
    ("output_types", .object (i.outputCounts.map fun (name, n) => (name, natural n))),
    ("image_placeholders", natural i.imagePlaceholders),
    ("destination", .string i.destination)]

private def entry (label value : Text) : Text :=
  Text.line ("  " ++ Text.padEnd 14 label ++ " " ++ value)

def text (i : SourceInfo) : Text :=
  let cells := Text.ofNat i.cells.total ++ " (" ++ Text.ofNat i.cells.markdown ++ " markdown, " ++
    Text.ofNat i.cells.code ++ " code, " ++ Text.ofNat i.cells.raw ++ " raw, " ++
    Text.ofNat i.cells.unsupported ++ " unsupported)"
  let outputs : Text :=
    if i.outputs.isEmpty then "0"
    else Text.ofNat i.outputs.length ++ " (" ++
      Text.joinWith ", " (i.outputCounts.map fun (name, n) => Text.ofNat n ++ " " ++ name) ++ ")"
  Text.line i.path ++
    entry "Format:" i.format.name ++
    entry "Title:" i.title ++
    entry "Description:" i.description ++
    entry "Language:" (i.language.getD "unknown") ++
    (i.kernel.map (entry "Kernel:")).getD [] ++
    onlyIf (!i.authors.isEmpty) (entry "Authors:" (Text.joinWith ", " i.authors)) ++
    entry "nbformat:" i.version ++
    entry "Cells:" cells ++
    entry "Outputs:" outputs ++
    entry "Images:" (Text.ofNat i.imagePlaceholders) ++
    entry "Destination:" i.destination

end SourceInfo

def InfoRequest.run (r : InfoRequest) (s : Settings) (t : FileTree) : Outcome :=
  if !t.contains r.input then .announced t (missingMessage r.input) []
  else match describe s t r.input with
    | .error f => { files := t, ending := .failed f }
    | .ok info =>
      { files := t
        output := if r.json then Text.line (Json.pretty info.toJson) else info.text }

end NotebookPages.Command
