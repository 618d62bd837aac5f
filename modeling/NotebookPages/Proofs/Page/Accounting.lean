import NotebookPages.Proofs.Notebook.Decoding
import NotebookPages.Proofs.Page.Composition

/-! What a page counts. Each cell is counted once, as what it is or as empty or unsupported, each output as rendered or skipped, each
image by its note, and each change of the pass over a Markdown cell. Nothing of the file goes uncounted. -/

namespace NotebookPages

/-- The changes that several reports count together. -/
def Report.total (reports : List Report) : Report := reports.foldr (· + ·) {}

theorem Report.total_append (xs ys : List Report) : total (xs ++ ys) = total xs + total ys := by
  induction xs with
  | nil => exact (zero_add _).symm
  | cons x xs ih =>
    show x + total (xs ++ ys) = x + total xs + total ys
    rw [ih, add_assoc]

namespace Page

open Markup

variable {o : PageOptions} {cells cells' outputs outputs' images images' : Nat} {sources sources' : List Text} {s s' : Stats}
  {destination : Path} {bytes : Bytes} {p : Page}

/-- The counts are those of so many cells, outputs and images, and of the passes over the given prose. -/
structure Accounted (o : PageOptions) (cells outputs images : Nat) (sources : List Text) (s : Stats) : Prop where
  cells : s.markdownCells + s.codeCells + s.rawCells + s.emptyCells + s.unsupportedCells = cells
  outputs : s.outputsRendered + s.outputsSkipped = outputs
  images : s.imagePlaceholders = images
  sanitizer : s.sanitizer = Report.total (sources.map fun source => (sanitizeReport o.rules source).2)

theorem accounted_none (o : PageOptions) : Accounted o 0 0 0 [] {} := ⟨rfl, rfl, rfl, rfl⟩

theorem Accounted.append (one : Accounted o cells outputs images sources s) (other : Accounted o cells' outputs' images' sources' s') :
    Accounted o (cells + cells') (outputs + outputs') (images + images') (sources ++ sources') (s + s') := by
  obtain ⟨rfl, rfl, rfl, first⟩ := one
  obtain ⟨rfl, rfl, rfl, second⟩ := other
  constructor
  · show s.markdownCells + s'.markdownCells + (s.codeCells + s'.codeCells) + (s.rawCells + s'.rawCells) +
      (s.emptyCells + s'.emptyCells) + (s.unsupportedCells + s'.unsupportedCells) = _
    omega
  · show s.outputsRendered + s'.outputsRendered + (s.outputsSkipped + s'.outputsSkipped) = _
    omega
  · rfl
  · show s.sanitizer + s'.sanitizer = _
    rw [first, second, List.map_append, Report.total_append]

theorem outputImages_eq (out : Output) : outputImages out = out.images.length := by
  cases out with
  | stream | error | unknown => rfl
  | executeResult | displayData => exact List.countP_eq_length_filter

/-- An output is rendered or skipped, and all its images are counted either way. -/
theorem accounted_renderOutput (o : PageOptions) (out : Output) :
    Accounted o 0 1 out.images.length [] (renderOutput o.dialect out).stats := by
  refine ⟨rfl, ?_, outputImages_eq out, rfl⟩
  unfold renderOutput
  simp only
  split <;> rfl

theorem accounted_outputs (o : PageOptions) (outputs : List Output) :
    Accounted o 0 outputs.length (outputs.flatMap Output.images).length [] (Blocks.concat (outputs.map (renderOutput o.dialect))).stats := by
  induction outputs with
  | nil => exact accounted_none o
  | cons out outputs ih =>
    rw [List.length_cons, Nat.add_comm, List.flatMap_cons, List.length_append]
    exact (accounted_renderOutput o out).append ih

/-- The prose that is not blank. -/
def written (sources : List Text) : List Text := sources.filter (!Text.allBlank ·)

/-- A cell is counted once, whatever it is, and a blank code cell with outputs is no empty cell. -/
theorem accounted_renderCell (o : PageOptions) (language : Text) (c : Cell) :
    Accounted o 1 c.outputs.length (c.outputs.flatMap Output.images).length (written c.prose?.toList)
      (renderCell o language c).stats := by
  have empty : Accounted o 1 0 0 [] emptyCell.stats := ⟨rfl, rfl, rfl, rfl⟩
  cases c with
  | markdown id source =>
    have prose : (Cell.markdown id source).prose?.toList = [source] := rfl
    rw [prose, written]
    simp only [renderCell]
    split
    next blank =>
      rw [List.filter_cons_of_neg (by simp [blank])]
      exact empty
    next some =>
      rw [List.filter_cons_of_pos (by simp [some])]
      exact ⟨rfl, rfl, rfl, rfl⟩
  | code id source count outputs =>
    simp only [renderCell]
    split
    next bare =>
      obtain ⟨-, none⟩ := bare
      rw [Cell.outputs, List.isEmpty_iff.mp none]
      exact empty
    next =>
      have cell : Accounted o 1 0 0 [] { codeCells := 1 } := ⟨rfl, rfl, rfl, rfl⟩
      have whole := cell.append (accounted_outputs o outputs)
      rw [Nat.zero_add, Nat.zero_add] at whole
      exact whole
  | raw id source =>
    simp only [renderCell]
    split
    next => exact empty
    next => exact ⟨rfl, rfl, rfl, rfl⟩
  | unsupported kind => exact ⟨rfl, rfl, rfl, rfl⟩

theorem accounted_renderBody (o : PageOptions) (n : Notebook) :
    Accounted o n.cells.length (n.cells.flatMap Cell.outputs).length ((n.cells.flatMap Cell.outputs).flatMap Output.images).length
      (written (n.cells.filterMap Cell.prose?)) (renderBody o n).2 := by
  unfold renderBody
  simp only
  induction n.cells with
  | nil => exact accounted_none o
  | cons c cells ih =>
    have both := (accounted_renderCell o (language o n.metadata) c).append ih
    have prose : (c :: cells).filterMap Cell.prose? = c.prose?.toList ++ cells.filterMap Cell.prose? := by
      cases here : c.prose? <;> simp [here]
    rw [List.length_cons, Nat.add_comm, List.flatMap_cons, List.length_append, List.flatMap_append, List.length_append, prose, written,
      List.filter_append]
    exact both

/-- Nothing of a notebook goes uncounted: the counts of its page are those of the entries of the cell list in its file, of the outputs
that these list, of the image types that the outputs name, and of the passes over the prose that is not blank. -/
theorem accounted_ofBytes (made : ofBytes o destination bytes = .ok p) : ∃ fields items,
    Notebook.readContainer? bytes = some fields ∧ fields.lookup ("cells" : Text) = some (.array items) ∧
    Accounted o items.length (items.flatMap Json.listedOutputs).length
      ((items.flatMap Json.listedOutputs).flatMap Json.imageTypes).length (written (items.filterMap Json.prose?)) p.stats := by
  obtain ⟨n, read, rfl⟩ := Except.map_eq_ok_iff.mp made
  obtain ⟨fields, items, container, array, kept⟩ := Notebook.exists_items_of_decode read
  refine ⟨fields, items, container, array, ?_⟩
  rw [kept.length_eq, ← Notebook.prose_of_kept kept, (Notebook.outputs_of_kept kept).length_eq, ← Notebook.images_of_kept kept]
  exact accounted_renderBody o n

/-- A notebook of some prose with a brace, a blank code cell that shows a picture, an empty cell and a cell of a kind of its own. -/
def gallery : Bytes :=
  Text.encode ("\x7b\"nbformat\":4,\"nbformat_minor\":5,\"cells\":[\x7b\"cell_type\":\"markdown\",\"source\":\"a \x7b\"\x7d," ++
    "\x7b\"cell_type\":\"code\",\"source\":\" \",\"outputs\":" ++
    "[\x7b\"output_type\":\"display_data\",\"data\":\x7b\"image/png\":\"iVBO\"\x7d\x7d]\x7d," ++
    "\x7b\"cell_type\":\"raw\",\"source\":\"\"\x7d,\x7b\"cell_type\":\"chart\"\x7d]\x7d")

theorem accounted_ofBytes_gallery : ∃ p, ofBytes {} "gallery.mdx" gallery = .ok p ∧ ∃ fields items,
    Notebook.readContainer? gallery = some fields ∧ fields.lookup ("cells" : Text) = some (.array items) ∧
    Accounted {} items.length (items.flatMap Json.listedOutputs).length
      ((items.flatMap Json.listedOutputs).flatMap Json.imageTypes).length (written (items.filterMap Json.prose?)) p.stats := by
  have counts : (ofBytes {} "gallery.mdx" gallery).toOption.map Page.stats = some {
      markdownCells := 1, codeCells := 1, emptyCells := 1, unsupportedCells := 1, outputsRendered := 1, imagePlaceholders := 1,
      sanitizer := { escapedBraces := 1 } } := by decide +kernel
  cases made : ofBytes {} "gallery.mdx" gallery with
  | error e =>
    rw [made] at counts
    cases counts
  | ok p => exact ⟨p, rfl, accounted_ofBytes made⟩

end Page
end NotebookPages
