import NotebookPages.Proofs.Page.Blocks

/-! What a page shows of a notebook. The payloads of images, and of all types but plain text and HTML, make no difference to it,
nor do the names of streams, the counts of runs, the names of cells and the metadata beside title, description and language. -/

namespace NotebookPages

variable {mime : Text} {o : PageOptions} {n n' : Notebook} {c : Cell}

namespace MimeBundle

/-- The types whose payloads are shown. -/
def isShown (mime : Text) : Bool := mime == "text/plain" || mime == "text/html"

/-- The types of a bundle, with the payloads that are shown. -/
def visible (b : MimeBundle) : MimeBundle :=
  ⟨b.items.map fun (mime, payload) => (mime, if isShown mime then payload else [])⟩

theorem mimes_visible (b : MimeBundle) : b.visible.mimes = b.mimes := by
  simp [mimes, visible]

theorem get?_visible (shown : isShown mime = true) (b : MimeBundle) : b.visible.get? mime = b.get? mime := by
  obtain ⟨items⟩ := b
  simp only [get?, visible]
  induction items with
  | nil => rfl
  | cons item items ih =>
    obtain ⟨key, payload⟩ := item
    rw [List.map_cons, List.lookup_cons, List.lookup_cons, ih]
    by_cases same : mime = key
    · rw [← same, shown, if_pos rfl]
    · rw [beq_false_of_ne same]

end MimeBundle

def Output.visible : Output → Output
  | .stream _ text => .stream [] text
  | .executeResult _ data => .executeResult none data.visible
  | .displayData data => .displayData data.visible
  | .error name value traceback => .error name value traceback
  | .unknown => .unknown

def Cell.visible : Cell → Cell
  | .markdown _ source => .markdown none source
  | .code _ source _ outputs => .code none source none (outputs.map Output.visible)
  | .raw _ source => .raw none source
  | .unsupported kind => .unsupported kind

def Metadata.visible (m : Metadata) : Metadata := { title := m.title, description := m.description, language := m.language }

/-- A notebook without all that no page shows. -/
def Notebook.visible (n : Notebook) : Notebook := { n with metadata := n.metadata.visible, cells := n.cells.map Cell.visible }

theorem Notebook.markdownSources_visible (n : Notebook) : n.visible.markdownSources = n.markdownSources := by
  rw [markdownSources, markdownSources, visible, List.filterMap_map]
  refine List.filterMap_congr fun c _ => ?_
  cases c <;> rfl

namespace Page

theorem ofBundle_visible (d : Dialect) (b : MimeBundle) : ofBundle d b.visible = ofBundle d b := by
  rw [ofBundle, ofBundle, MimeBundle.mimes_visible, MimeBundle.get?_visible rfl, MimeBundle.get?_visible rfl]

theorem ofOutput_visible (d : Dialect) (out : Output) : ofOutput d out.visible = ofOutput d out := by
  cases out with
  | stream name text => rfl
  | executeResult count data => exact ofBundle_visible d data
  | displayData data => exact ofBundle_visible d data
  | error name value traceback => rfl
  | unknown => rfl

theorem outputImages_visible (out : Output) : outputImages out.visible = outputImages out := by
  cases out with
  | stream name text => rfl
  | executeResult count data => rw [Output.visible, outputImages, MimeBundle.mimes_visible, outputImages]
  | displayData data => rw [Output.visible, outputImages, MimeBundle.mimes_visible, outputImages]
  | error name value traceback => rfl
  | unknown => rfl

theorem renderOutput_visible (d : Dialect) (out : Output) : renderOutput d out.visible = renderOutput d out := by
  rw [renderOutput, renderOutput, ofOutput_visible, outputImages_visible]

theorem renderCell_visible (o : PageOptions) (language : Text) (c : Cell) :
    renderCell o language c.visible = renderCell o language c := by
  cases c with
  | markdown id source => rfl
  | code id source count outputs =>
    have outputs_visible : (outputs.map Output.visible).map (renderOutput o.dialect) = outputs.map (renderOutput o.dialect) := by
      rw [List.map_map]
      exact List.map_congr_left fun out _ => renderOutput_visible o.dialect out
    simp only [renderCell, Cell.visible, List.isEmpty_map, outputs_visible]
  | raw id source => rfl
  | unsupported kind => rfl

theorem renderBody_visible (o : PageOptions) (n : Notebook) : renderBody o n.visible = renderBody o n := by
  have cells : n.visible.cells.map (renderCell o (language o n.metadata)) = n.cells.map (renderCell o (language o n.metadata)) := by
    rw [Notebook.visible, List.map_map]
    exact List.map_congr_left fun c _ => renderCell_visible o (language o n.metadata) c
  rw [renderBody, renderBody, ← cells]
  rfl

theorem ofNotebook_visible (o : PageOptions) (destination : Path) (n : Notebook) :
    ofNotebook o destination n.visible = ofNotebook o destination n := by
  have title : n.visible.title destination = n.title destination := by
    rw [Notebook.title, Notebook.title, n.markdownSources_visible]
    rfl
  have description : n.visible.description o.description = n.description o.description := by
    rw [Notebook.description, Notebook.description, n.markdownSources_visible]
    rfl
  rw [ofNotebook, ofNotebook, title, description, renderBody_visible]

/-- Notebooks that differ in nothing visible have the same page: its content, title, description and counts. Of an image the
page shows that it is there, by a note that is made from its type alone. -/
theorem ofNotebook_eq_of_visible (same : n.visible = n'.visible) (o : PageOptions) (destination : Path) :
    ofNotebook o destination n = ofNotebook o destination n' ∧
      ∀ c ∈ n.cells, ∀ mime ∈ c.images, imagePlaceholder o.dialect mime ∈ blocks o n := by
  refine ⟨?_, fun c member mime shown => List.mem_flatMap_of_mem member (note_mem_blocksOf shown)⟩
  rw [← ofNotebook_visible, same, ofNotebook_visible]

/-- A notebook with a drawing in two forms, whose payload is given. -/
def drawing (payload : Text) (count : Option Int) : Notebook where
  major := 4
  minor := 5
  metadata := { kernelName := some payload }
  cells := [.code (some payload) "draw()" count
    [.displayData ⟨[("application/json", payload), ("image/png", payload), ("text/plain", "<Figure>")]⟩]]

theorem ofNotebook_eq_of_visible_drawing : (drawing "AAAA" (some 1)).visible = (drawing "BBBB" none).visible ∧
    ofNotebook {} "a.mdx" (drawing "AAAA" (some 1)) = ofNotebook {} "a.mdx" (drawing "BBBB" none) ∧
    ∀ c ∈ (drawing "AAAA" (some 1)).cells, ∀ mime ∈ c.images, imagePlaceholder .mdx mime ∈ blocks {} (drawing "AAAA" (some 1)) :=
  ⟨by decide, ofNotebook_eq_of_visible (by decide) {} "a.mdx"⟩

end Page
end NotebookPages
