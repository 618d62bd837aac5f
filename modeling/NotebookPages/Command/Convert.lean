import NotebookPages.Command.Preferences
import NotebookPages.Storage.Publish
import NotebookPages.Storage.Source
import NotebookPages.Text.Quoted

/-!
The command that makes one page, from a file or from a notebook on standard input.
-/

namespace NotebookPages.Command

inductive Conversion where
  | failed (f : Failure)
  | missing
  | unsupported
  | printed (p : Page)
  | refused (p : Page) (r : Refusal)
  | kept (p : Page)
  | planned (p : Page)
  | written (p : Page) (backup : Option Path)
  deriving Repr

namespace ConvertRequest

def place (r : ConvertRequest) (t : FileTree) (source : Path) (p : Page) : FileTree × Conversion :=
  match t.refusal? r.force source p.path with
  | some .destinationExists =>
    (t, if r.noClobber then .kept p else .refused p .destinationExists)
  | some reason => (t, .refused p reason)
  | none =>
    if r.dryRun then (t, .planned p)
    else match t.publish r.backup p.path p.content with
      | (t, .ok backup) => (t, .written p backup)
      | (t, .error e) => (t, .failed e.failure)

def runOnInput (r : ConvertRequest) (o : PageOptions) (t : FileTree) (input : Bytes) :
    FileTree × Conversion :=
  let standard : Path := "notebook." ++ o.dialect.extension
  match Page.ofBytes o (r.output.getD standard) input with
  | .error e =>
    (t, .failed ((SourceError.malformed e).failure.within "Failed to convert notebook from stdin"))
  | .ok p => if r.output.isNone then (t, .printed p) else r.place t standardInput p

def runOnFile (r : ConvertRequest) (s : Settings) (o : PageOptions) (t : FileTree) :
    FileTree × Conversion :=
  let source : Path := r.input
  if !t.contains source then (t, .missing)
  else if (SourceFormat.ofPath? source).isNone then (t, .unsupported)
  else
    let destination :=
      r.output.getD (Page.outputPath o.dialect (s.resolveOutputDir r.outputDir) source)
    match Page.ofFile o t destination source with
    | .error e => (t, .failed (e.failure.within ("Failed to convert " ++ source)))
    | .ok p => r.place t source p

def convert (r : ConvertRequest) (s : Settings) (t : FileTree) (input : Bytes) :
    FileTree × Conversion :=
  match s.resolveDialect r.dialect with
  | .error e => (t, .failed ⟨Settings.dialectMessage e, []⟩)
  | .ok d =>
    let o := s.pageOptions d r.language
    if r.input = standardInput then r.runOnInput o t input else r.runOnFile s o t

end ConvertRequest

def statsText (s : Stats) : Text :=
  Text.line ("  Cells: " ++ Text.ofNat s.markdownCells ++ " markdown, " ++ Text.ofNat s.codeCells ++
    " code, " ++ Text.ofNat s.rawCells ++ " raw (" ++ Text.ofNat s.emptyCells ++ " empty, " ++
    Text.ofNat s.unsupportedCells ++ " unsupported skipped)") ++
  Text.line ("  Outputs: " ++ Text.ofNat s.outputsRendered ++ " rendered, " ++
    Text.ofNat s.outputsSkipped ++ " skipped, " ++ Text.ofNat s.imagePlaceholders ++
    " image placeholders") ++
  Text.line ("  Sanitizer: " ++ s.sanitizer.summary)

def writtenLine (source destination : Path) : Text :=
  Text.line ("✓ " ++ shortName source ++ " -> " ++ destination)

def Conversion.outcome (v : Verbosity) (source : Path) (t : FileTree) : Conversion → Outcome
  | failed f => { files := t, ending := .failed f }
  | missing => .announced t (missingMessage source) []
  | unsupported =>
    .announced t (unsupportedMessage source)
      (Text.line "Help: Supported extensions: .ipynb, .md, .markdown, .mdx")
  | printed p => { files := t, output := p.content }
  | refused p r => .announced t (p.path ++ ": " ++ r.message) []
  | kept p =>
    { files := t
      status := onlyIf v.showsStatus
        (Text.line ("Skip: " ++ p.path ++ " already exists (--no-clobber)")) }
  | planned p =>
    { files := t
      output := Text.line ("Dry run: Would write " ++ p.path ++ " (" ++
        Text.ofNat (Text.utf8Length p.content) ++ " bytes, title: " ++ Text.quoted p.title ++ ")")
      status := onlyIf v.isVerbose (statsText p.stats) }
  | written p backup =>
    let copied : Text := match backup with
      | some b => Text.line ("  Backup: previous version saved to " ++ b)
      | none => []
    { files := t
      status := onlyIf v.showsStatus (writtenLine source p.path ++ copied) ++
        onlyIf v.isVerbose (statsText p.stats) }

def ConvertRequest.run (r : ConvertRequest) (v : Verbosity) (s : Settings) (t : FileTree)
    (input : Bytes) : Outcome :=
  let (t, conversion) := r.convert s t input
  conversion.outcome v r.input t

end NotebookPages.Command
