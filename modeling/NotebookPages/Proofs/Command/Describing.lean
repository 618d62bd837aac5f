import NotebookPages.Command.Info
import NotebookPages.Proofs.Command.Unforced
import NotebookPages.Proofs.Notebook.Prose

/-! What is told of a source against the page that is made of it. Both go to one place, and of a notebook and of a document without a
header both have one title and one description. Of a document with a header they have what two readings give: the page keeps what the
fields of the header say, while the header is prose like any other to the one who tells. -/

namespace NotebookPages

/-- The rules for descriptions, which no option of a command changes. -/
def Settings.descriptionRules (s : Settings) : DescriptionRules := (s.pageOptions .mdx none).description

theorem Settings.description_pageOptions (s : Settings) (d : Dialect) (language : Option Text) :
    (s.pageOptions d language).description = s.descriptionRules := rfl

namespace Command

open Notebook (headingFrom summaryFrom titleOfPath)

variable {s : Settings} {t : FileTree} {input : Bytes} {q : Path} {i : SourceInfo} {p : Page} {r : ConvertRequest}
  {header body text : Text}

namespace ConvertRequest

theorem page_place (r : ConvertRequest) (t : FileTree) (q : Path) (p : Page) :
    (∃ f, (r.place t q p).2 = .failed f) ∨ (r.place t q p).2.page? = some p := by
  unfold place
  split
  next =>
    refine Or.inr ?_
    simp only
    split <;> rfl
  next => exact Or.inr rfl
  next =>
    split
    next => exact Or.inr rfl
    next =>
      split
      next => exact Or.inr rfl
      next => exact Or.inl ⟨_, rfl⟩

theorem eq_of_page_place {p' : Page} (made : (r.place t q p).2.page? = some p') : p = p' := by
  rcases page_place r t q p with ⟨f, failed⟩ | same
  · rw [failed] at made
    cases made
  · exact Option.some.inj (same.symm.trans made)

/-- The page of a file that was asked for is the page of the file for its place. -/
theorem ofFile_of_page (given : r.input ≠ standardInput) (made : (r.convert s t input).2.page? = some p) :
    ∃ d, s.resolveDialect r.dialect = .ok d ∧
      Page.ofFile (s.pageOptions d r.language) t
        (r.output.getD (Page.outputPath d (s.resolveOutputDir r.outputDir) r.input)) r.input = .ok p := by
  rcases r.convert_file given with ⟨d, p', resolved, page, same⟩ | ⟨c, none, same⟩
  · rw [same] at made
    obtain rfl := eq_of_page_place made
    exact ⟨d, resolved, page⟩
  · rw [same, none] at made
    cases made

end ConvertRequest

/-- What is told of a source is the title, the description and the place of its cells. -/
theorem describe_cases (told : describe s t q = .ok i) : ∃ n d, SourceFormat.ofPath? q = some i.format ∧
    readNotebook t q i.format = .ok n ∧ s.resolveDialect none = .ok d ∧ i.destination = Page.outputPath d (s.resolveOutputDir none) q ∧
    i.title = n.title i.destination ∧ i.description = n.description s.descriptionRules := by
  unfold describe at told
  split at told
  next => cases told
  next format known =>
    obtain ⟨n, read, told⟩ := Except.bind_eq_ok_iff.mp told
    obtain ⟨d, resolved, told⟩ := Except.bind_eq_ok_iff.mp told
    obtain rfl := Except.ok.inj told
    exact ⟨n, d, known, read, Except.mapError_eq_ok_iff.mp resolved, rfl, rfl, rfl⟩

/-- What is told of a document with a header: its header is read as prose, and the body behind it under the fence that is open by then. -/
def toldOf (reading : Option Fence → List Text → Option Text) (header body fallback : Text) : Text :=
  ((reading none (Text.lines header)).or (reading (Fence.after none (Text.lines header)) (Text.lines body))).getD fallback

/-- What the page of a document with a header keeps: the field of the header, else what the body suggests. -/
def keptOf (reading : Option Fence → List Text → Option Text) (field header body fallback : Text) : Text :=
  ((Document.fields header).text? field).getD ((reading none (Text.lines body)).getD fallback)

theorem told_of_split (found : Document.split text = (some header, body)) (rules : DescriptionRules) (q : Path) :
    (Notebook.ofMarkdown text).title q = toldOf headingFrom header body (titleOfPath q) ∧
      (Notebook.ofMarkdown text).description rules = toldOf (summaryFrom rules) header body rules.fallback := by
  rw [Notebook.title_ofMarkdown, Notebook.description_ofMarkdown, Document.lines_of_split found, Notebook.headingFrom_append,
    Notebook.summaryFrom_append]
  exact ⟨rfl, rfl⟩

theorem kept_of_split (found : Document.split text = (some header, body)) (o : PageOptions) (q : Path) :
    (Page.ofMarkdown o q text).title = keptOf headingFrom "title" header body (titleOfPath q) ∧
      (Page.ofMarkdown o q text).description = keptOf (summaryFrom o.description) "description" header body o.description.fallback := by
  rw [Page.ofMarkdown, found]
  simp only
  rw [Notebook.title_ofMarkdown, Notebook.description_ofMarkdown]
  exact ⟨rfl, rfl⟩

/-- Of a document without a header both readings give the same. -/
theorem told_of_document (o : PageOptions) (q : Path) (text : Text) :
    (Document.hasHeader text = false ∧ (Notebook.ofMarkdown text).title q = (Page.ofMarkdown o q text).title ∧
        (Notebook.ofMarkdown text).description o.description = (Page.ofMarkdown o q text).description) ∨
      ∃ header body, Document.split text = (some header, body) ∧
        ((Notebook.ofMarkdown text).title q = (Page.ofMarkdown o q text).title ↔
          toldOf headingFrom header body (titleOfPath q) = keptOf headingFrom "title" header body (titleOfPath q)) ∧
        ((Notebook.ofMarkdown text).description o.description = (Page.ofMarkdown o q text).description ↔
          toldOf (summaryFrom o.description) header body o.description.fallback =
            keptOf (summaryFrom o.description) "description" header body o.description.fallback) := by
  cases found : Document.split text with
  | mk front body =>
    cases front with
    | none =>
      have whole : Page.ofMarkdown o q text = Page.ofNotebook o q (Notebook.ofMarkdown text) := by rw [Page.ofMarkdown, found]
      have bare : Document.hasHeader text = false := by
        rw [Document.hasHeader, found]
        rfl
      rw [whole]
      exact Or.inl ⟨bare, rfl, rfl⟩
    | some header =>
      obtain ⟨title, description⟩ := told_of_split found o.description q
      obtain ⟨title', description'⟩ := kept_of_split found o q
      rw [title, description, title', description']
      exact Or.inr ⟨header, body, rfl, Iff.rfl, Iff.rfl⟩

variable {n : Notebook}

/-- A notebook that can be told of has a page. -/
theorem ofFile_of_notebook (known : SourceFormat.ofPath? q = some .notebook) (read : readNotebook t q .notebook = .ok n) (o : PageOptions)
    (destination : Path) : Page.ofFile o t destination q = .ok (Page.ofNotebook o destination n) := by
  unfold readNotebook at read
  simp only at read
  split at read
  next => cases read
  next bytes content =>
    have decoded := Except.mapError_eq_ok_iff.mp read
    rw [Page.ofFile, known]
    simp only [content, Page.ofBytes, decoded, Except.map, Except.mapError]

/-- A document that can be told of has a page, and its text is taken for a notebook of one cell. -/
theorem ofFile_of_document (known : SourceFormat.ofPath? q = some .markdown) (read : readNotebook t q .markdown = .ok n) (o : PageOptions)
    (destination : Path) : ∃ text, t.readText q = .ok text ∧ n = Notebook.ofMarkdown text ∧
      Page.ofFile o t destination q = .ok (Page.ofMarkdown o destination text) := by
  unfold readNotebook at read
  simp only at read
  split at read
  next => cases read
  next text content =>
    obtain rfl := Except.ok.inj read
    refine ⟨text, content, rfl, ?_⟩
    rw [Page.ofFile, known]
    simp only [content]

/-- What is told of a source and the page that is made of it, when nothing else is asked for: both have one place. They have one title
and one description as well, unless the source is a document with a header; then they have where both readings of it give the same. -/
theorem describe_page (told : describe s t r.input = .ok i) (made : (r.convert s t input).2.page? = some p) (output : r.output = none)
    (directory : r.outputDir = none) (dialect : r.dialect = none) :
    i.destination = p.path ∧
    ((i.title = p.title ∧ i.description = p.description) ∧
        (i.format = .notebook ∨ ∃ text, t.readText r.input = .ok text ∧ Document.hasHeader text = false) ∨
      ∃ text header body, t.readText r.input = .ok text ∧ Document.split text = (some header, body) ∧
        (i.title = p.title ↔
          toldOf headingFrom header body (titleOfPath p.path) = keptOf headingFrom "title" header body (titleOfPath p.path)) ∧
        (i.description = p.description ↔
          toldOf (summaryFrom s.descriptionRules) header body s.descriptionRules.fallback =
            keptOf (summaryFrom s.descriptionRules) "description" header body s.descriptionRules.fallback)) := by
  obtain ⟨n, d, known, read, resolved, place, title, description⟩ := describe_cases told
  have given : r.input ≠ standardInput := by
    intro same
    rw [same] at known
    cases known
  obtain ⟨d', resolved', page⟩ := r.ofFile_of_page given made
  rw [dialect, resolved] at resolved'
  obtain rfl := Except.ok.inj resolved'
  rw [output, directory, Option.getD_none, ← place] at page
  have path : i.destination = p.path := (Page.path_ofFile page).symm
  refine ⟨path, ?_⟩
  cases format : i.format with
  | notebook =>
    rw [format] at known read
    rw [ofFile_of_notebook known read] at page
    obtain rfl := Except.ok.inj page
    exact Or.inl ⟨⟨title, description⟩, Or.inl rfl⟩
  | markdown =>
    rw [format] at known read
    obtain ⟨text, content, rfl, same⟩ := ofFile_of_document known read (s.pageOptions d r.language) i.destination
    obtain rfl := Except.ok.inj (same.symm.trans page)
    have rules : (s.pageOptions d r.language).description = s.descriptionRules := s.description_pageOptions d r.language
    rw [← rules] at description ⊢
    rw [title, description, ← path]
    rcases told_of_document (s.pageOptions d r.language) i.destination text with ⟨bare, agree⟩ | ⟨header, body, found, differ⟩
    · exact Or.inl ⟨agree, Or.inr ⟨text, content, bare⟩⟩
    · exact Or.inr ⟨text, header, body, content, found, differ⟩

/-- A document whose header has a title and whose body has another one. -/
def titled : FileTree := ⟨[(["a.md"], .file (Text.encode "---\ntitle: T\n---\n# H\n"))], []⟩

/-- The header's title is kept by the page and not told, and neither side gives a description of its own. -/
theorem describe_page_titled :
    let header : Text := "---\ntitle: T\n---\n"
    let body : Text := "# H\n"
    ∃ i p, describe {} titled "a.md" = .ok i ∧ (ConvertRequest.convert { input := "a.md" } {} titled []).2.page? = some p ∧
      i.destination = p.path ∧ titled.readText "a.md" = .ok (header ++ body) ∧ Document.split (header ++ body) = (some header, body) ∧
      toldOf headingFrom header body (titleOfPath p.path) = "H" ∧ keptOf headingFrom "title" header body (titleOfPath p.path) = "T" ∧
      i.title ≠ p.title ∧ i.description = p.description := by
  intro header body
  have told : (describe {} titled "a.md").toOption.isSome = true := by decide +kernel
  have made : (ConvertRequest.convert { input := "a.md" } {} titled []).2.page?.isSome = true := by decide +kernel
  have content : titled.readText "a.md" = .ok (header ++ body) := by decide +kernel
  have found : Document.split (header ++ body) = (some header, body) := by decide
  obtain ⟨p, made⟩ := Option.isSome_iff_exists.mp made
  cases described : describe {} titled "a.md" with
  | error f =>
    rw [described] at told
    cases told
  | ok i =>
    obtain ⟨place, parts⟩ := describe_page (r := { input := "a.md" }) described made rfl rfl rfl
    rcases parts with ⟨-, format | ⟨text, read, bare⟩⟩ | ⟨text, header', body', read, cut, title, description⟩
    · obtain ⟨n, d, known, -⟩ := describe_cases described
      rw [format] at known
      cases known
    · rw [content] at read
      obtain rfl := Except.ok.inj read
      rw [Document.hasHeader, found] at bare
      cases bare
    · rw [content] at read
      obtain rfl := Except.ok.inj read
      obtain ⟨front, rfl⟩ := Prod.mk.inj (found.symm.trans cut)
      obtain rfl := Option.some.inj front
      have heading : toldOf headingFrom header body (titleOfPath p.path) = "H" := rfl
      have field : (Document.fields header).text? "title" = some ['T'] := by decide +kernel
      have kept : keptOf headingFrom "title" header body (titleOfPath p.path) = "T" := by
        rw [keptOf, field]
        rfl
      refine ⟨i, p, rfl, made, place, content, found, heading, kept, fun same => ?_, description.mpr (by decide +kernel)⟩
      rw [title, heading, kept] at same
      cases same

/-- The title told is the heading of the body, and the title of the page is the one of its header. -/
theorem describe_page_differs :
    (describe {} titled "a.md").toOption.map (fun i => (i.title, i.destination)) = some (("H" : Text), ("a.mdx" : Path)) ∧
    (ConvertRequest.convert { input := "a.md" } {} titled []).2.page?.map (fun p => (p.title, p.path)) =
      some (("T" : Text), ("a.mdx" : Path)) := by
  decide +kernel

end Command
end NotebookPages
