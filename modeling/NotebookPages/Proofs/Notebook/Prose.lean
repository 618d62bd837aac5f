import NotebookPages.Proofs.Document.Reporting

/-! The title and the description that prose suggests, read line by line under the fences of the lines before. Prose in two parts
suggests what the first part does, else what the second does under the fence that the first leaves open. -/

namespace NotebookPages

namespace Text

/-- Where a text ends its last line, the lines behind it are lines of their own. -/
theorem lines_append {a : Text} (ends : a ≠ [] → a.getLast? = some '\n') (b : Text) : lines (a ++ b) = lines a ++ lines b := by
  rw [lines, endedLines_append ends, List.map_append]
  rfl

end Text

namespace Notebook

variable {held : Option Fence} {a b : List Text}

/-- The title that lines suggest, the fence being the one that holds the first. -/
def headingFrom (held : Option Fence) (lines : List Text) : Option Text := (proseFrom held lines).findSome? heading?

/-- The description that lines suggest. -/
def summaryFrom (rules : DescriptionRules) (held : Option Fence) (lines : List Text) : Option Text :=
  ((((proseFrom held lines).filter (!isSkipped ·)).map cleanWords).find? (rules.minLength < ·.length)).map (Text.shorten rules.maxLength)

theorem proseFrom_append (held : Option Fence) (a b : List Text) :
    proseFrom held (a ++ b) = proseFrom held a ++ proseFrom (Fence.after held a) b := by
  induction a generalizing held with
  | nil => rfl
  | cons line a ih =>
    rw [List.cons_append, proseFrom, proseFrom, ih, Fence.after_cons]
    split <;> rfl

theorem headingFrom_append (held : Option Fence) (a b : List Text) :
    headingFrom held (a ++ b) = (headingFrom held a).or (headingFrom (Fence.after held a) b) := by
  rw [headingFrom, proseFrom_append, List.findSome?_append]
  rfl

theorem summaryFrom_append (rules : DescriptionRules) (held : Option Fence) (a b : List Text) :
    summaryFrom rules held (a ++ b) = (summaryFrom rules held a).or (summaryFrom rules (Fence.after held a) b) := by
  rw [summaryFrom, proseFrom_append, List.filter_append, List.map_append, List.find?_append, Option.map_or]
  rfl

theorem title_ofMarkdown (text : Text) (p : Path) :
    (ofMarkdown text).title p = (headingFrom none (Text.lines text)).getD (titleOfPath p) := rfl

theorem description_ofMarkdown (rules : DescriptionRules) (text : Text) :
    (ofMarkdown text).description rules = (summaryFrom rules none (Text.lines text)).getD rules.fallback := by
  have sources : (ofMarkdown text).markdownSources.flatMap proseLines = proseFrom none (Text.lines text) := by
    show proseLines text ++ [] = _
    rw [List.append_nil, proseLines]
  have silent : present? (ofMarkdown text).metadata.description = none := rfl
  unfold description summaryFrom
  rw [silent]
  simp only [sources]
  cases List.find? _ _ <;> rfl

end Notebook

namespace Document

theorem lines_of_split {text header body : Text} (found : split text = (some header, body)) :
    Text.lines text = Text.lines header ++ Text.lines body := by
  rw [append_of_split found]
  by_cases none : body = []
  · rw [none, List.append_nil]
    exact (List.append_nil _).symm
  · apply Text.lines_append
    intro some
    have ends := @getLast?_header text (by rw [found]; exact none) (by rw [found]; exact some)
    rw [found] at ends
    exact ends

end Document
end NotebookPages
