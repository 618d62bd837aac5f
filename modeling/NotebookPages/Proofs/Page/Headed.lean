import NotebookPages.Proofs.Document.Checking
import NotebookPages.Proofs.Document.Generated

/-! Every page is split into the header and the body that it was made of. A page keeps the header of its document, or has
a generated one, after which the blank line counts to the body. -/

namespace NotebookPages

namespace Document

variable {rules : DescriptionRules} {path : Path} {text added : Text}

theorem exists_split_render (h : Header) (body : Text) :
    ∃ header, split (h.render ++ body) = (some header, '\n' :: body) ∧ header ++ ['\n'] = h.render :=
  ⟨Text.line Header.delimiter ++ h.fieldLines.flatten, Header.split_render_append h body,
    by rw [Header.render_eq, List.append_assoc]⟩

theorem hasHeader_render_append (h : Header) (body : Text) : hasHeader (h.render ++ body) = true := by
  obtain ⟨header, found, -⟩ := exists_split_render h body
  rw [hasHeader, found]
  rfl

theorem addHeader?_eq_none_iff : addHeader? rules path text = none ↔ hasHeader text = true := by
  unfold addHeader?
  split
  next present => simp [present]
  next absent => simp [absent]

theorem addHeader?_eq_some (found : addHeader? rules path text = some added) :
    added = Header.render ⟨(Notebook.ofMarkdown text).title path, (Notebook.ofMarkdown text).description rules, none⟩ ++ text := by
  unfold addHeader? at found
  split at found
  · cases found
  · exact (Option.some.inj found).symm

end Document

namespace Page

variable {o : PageOptions} {destination : Path} {text header body : Text}

theorem content_of_header (found : Document.split text = (some header, body)) :
    (ofMarkdown o destination text).content = header ++ Markup.sanitize o.rules body := by
  unfold ofMarkdown
  rw [found]
  rfl

theorem content_of_none (found : Document.split text = (none, body)) : (ofMarkdown o destination text).content =
    Header.render ⟨(Notebook.ofMarkdown text).title destination, (Notebook.ofMarkdown text).description o.description,
      o.sidebarPosition⟩ ++ (renderBody o (Notebook.ofMarkdown text)).1 := by
  unfold ofMarkdown
  rw [found]
  rfl

/-- A page made from a document, and a document that a header is added to, are split where they were put together; so no
header is added twice. -/
theorem split_generated (o : PageOptions) (destination path : Path) (rules : DescriptionRules) (text : Text) :
    (match Document.split text with
      | (some header, body) =>
        Document.split (ofMarkdown o destination text).content = (some header, Markup.sanitize o.rules body)
      | (none, _) => ∃ header,
        Document.split (ofMarkdown o destination text).content =
          (some header, '\n' :: (renderBody o (Notebook.ofMarkdown text)).1) ∧
        header ++ ['\n'] = Header.render ⟨(Notebook.ofMarkdown text).title destination,
          (Notebook.ofMarkdown text).description o.description, o.sidebarPosition⟩) ∧
    (match Document.addHeader? rules path text with
      | none => (Document.split text).1.isSome = true
      | some added => (Document.split text).1 = none ∧
        (∃ header, Document.split added = (some header, '\n' :: text) ∧
          header ++ ['\n'] = Header.render ⟨(Notebook.ofMarkdown text).title path,
            (Notebook.ofMarkdown text).description rules, none⟩) ∧
        ∀ again elsewhere, Document.addHeader? again elsewhere added = none) := by
  constructor
  · cases found : Document.split text with
    | mk header body =>
      cases header with
      | some header =>
        rw [content_of_header found]
        exact Document.split_append found fun empty => by rw [empty, Markup.sanitize_nil]
      | none =>
        simp only [content_of_none found]
        exact Document.exists_split_render _ _
  · cases result : Document.addHeader? rules path text with
    | none => exact Document.addHeader?_eq_none_iff.mp result
    | some added =>
      have absent : Document.hasHeader text = false := by
        rw [← Bool.not_eq_true]
        intro present
        rw [Document.addHeader?_eq_none_iff.mpr present] at result
        cases result
      obtain rfl := Document.addHeader?_eq_some result
      refine ⟨by simpa [Document.hasHeader] using absent, Document.exists_split_render _ _, fun again elsewhere => ?_⟩
      exact Document.addHeader?_eq_none_iff.mpr (Document.hasHeader_render_append _ _)

end Page
end NotebookPages
