import NotebookPages.Notebook.Summary
import NotebookPages.Proofs.Markup.FencedLines
import NotebookPages.Proofs.Markup.ProseLines

/-! A title or a description is searched in the same lines that a pass treats as prose. The two divide a text into lines in
different ways, but only blanks at the ends of lines and an empty last line tell the divisions apart, and no fence depends on them. -/

namespace NotebookPages

namespace Text

variable {t : Text}

/-- Of a line with its end only a carriage return is left out besides the line feed. -/
theorem exists_withoutEnd_line (t : Text) : ∃ v, Blank v ∧ t = withoutEnd (line t) ++ v := by
  rcases List.eq_nil_or_concat t with rfl | ⟨front, c, rfl⟩
  · exact ⟨[], blank_nil, rfl⟩
  · by_cases mark : c = '\r'
    · subst mark
      refine ⟨['\r'], forall_mem_of_all (by decide), ?_⟩
      simp [withoutEnd, line]
    · refine ⟨[], blank_nil, ?_⟩
      simp [withoutEnd, line, mark]

theorem withoutEnd_of_isLine (line : IsLine t) : withoutEnd t = t := by
  have absent : '\n' ∉ t.reverse := fun inside => line (List.mem_reverse.mp inside)
  unfold withoutEnd
  split
  next shape => exact absurd (shape ▸ List.mem_cons_self) absent
  next shape => exact absurd (shape ▸ List.mem_cons_self) absent
  next => rfl

theorem padded_lines (t : Text) : Padded (splitLines t) (lines t) := by
  obtain ⟨front, last, shape, ended⟩ := endedLines_of_splitLines t
  have alone : IsLine last := isLine_of_mem (t := t) (by simp [shape])
  rw [lines, shape, ended, List.map_append, List.map_map]
  refine Padded.append ?_ ?_
  · clear shape ended
    induction front with
    | nil => exact .nil
    | cons first front ih =>
      obtain ⟨v, blank, same⟩ := exists_withoutEnd_line first
      have here := Padded.line (w := withoutEnd (line first)) blank_nil blank ih
      rwa [List.nil_append, ← same] at here
  · split
    next empty => exact .blank (empty ▸ blank_nil) .nil
    next => rw [List.map_singleton, withoutEnd_of_isLine alone]; exact padded_refl [last]

end Text

namespace Notebook

variable {held : Option Fence} {a b : List Text}

theorem proseFrom_eq_map (held : Option Fence) (lines : List Text) :
    proseFrom held lines = (Markup.proseLines held lines).map Text.trim := by
  induction lines generalizing held with
  | nil => rfl
  | cons line lines ih =>
    rw [proseFrom, Markup.proseLines, ih]
    split <;> rfl

/-- Blanks around lines and blank lines among them make no difference to the lines that say something. -/
theorem proseFrom_of_padded (padded : Text.Padded a b) (long : Fence.Long held) :
    (proseFrom held a).filter (!·.isEmpty) = (proseFrom held b).filter (!·.isEmpty) := by
  induction padded generalizing held with
  | nil => rfl
  -- a blank line moves no fence, and where it is prose nothing remains of it
  | @blank line _ _ blank _ ih =>
    rw [proseFrom, Fence.next_blank long blank, Text.trim_eq_nil_of_blank blank]
    split
    · exact ih long
    · exact ih long
  | @line u w v _ _ front back _ ih =>
    rw [proseFrom, proseFrom, Markup.isProse_of_blank front back, Fence.next_of_blank front back, Text.trim_of_blank front back]
    split
    · rw [List.filter_cons, List.filter_cons, ih (long.next w)]
    · exact ih (long.next w)

end Notebook

namespace Markup

/-- The source of a line that a pass treats as prose. -/
def Line.outside? : Line → Option Text
  | .fenced _ => none
  | l => some l.source

variable {rules : Rules} {held : Option Fence} {source : Text} {sources : List Text} {l : Line} {ls : List Line}

theorem Line.Settled.outside? (settled : l.Settled rules held source) :
    l.outside? = if Fence.isProse held source then some source else none := by
  cases settled with
  | fenced inside =>
    rw [inside]
    rfl
  | prose _ outside | replaced outside =>
    rw [outside]
    rfl

theorem Passed.outside? (passed : Passed rules held sources ls) : ls.filterMap Line.outside? = Markup.proseLines held sources := by
  induction passed with
  | nil => rfl
  | @cons held source _ _ _ first _ ih =>
    rw [List.filterMap_cons, first.outside?, Markup.proseLines, ← ih]
    cases Fence.isProse held source <;> rfl

theorem outside?_run (rules : Rules) (t : Text) (number : Nat) : (Pass.run rules t).lines[number]?.bind Line.outside? =
    (Text.splitLines t)[number]?.filter fun line => Fence.isProse (Fence.holding t number) line := by
  obtain ⟨here, beyond⟩ | ⟨l, source, here, same, settled⟩ := (passed_run rules t).line_cases number
  · rw [here, beyond]
    rfl
  · rw [here, same, Option.bind_some, settled.outside?, Option.filter_some, Fence.holding]

end Markup

namespace Notebook

/-- A pass treats as prose the lines that neither lie in a fence nor delimit one. Trimmed, and without those that are empty, they
are the lines in which a title or a description is searched. -/
theorem proseLines_eq_outside (rules : Markup.Rules) (t : Text) :
    (∀ number, (Markup.Pass.run rules t).lines[number]?.bind Markup.Line.outside? =
        (Text.splitLines t)[number]?.filter fun line => Fence.isProse (Fence.holding t number) line) ∧
      (proseLines t).filter (!·.isEmpty) =
        (((Markup.Pass.run rules t).lines.filterMap Markup.Line.outside?).map Text.trim).filter (!·.isEmpty) := by
  refine ⟨Markup.outside?_run rules t, ?_⟩
  rw [(Markup.passed_run rules t).outside?, ← proseFrom_eq_map]
  exact (proseFrom_of_padded (Text.padded_lines t) Fence.long_none).symm

/-- A longer fence closes, a shorter one does not, and the carriage returns belong to no line. -/
example : proseLines "a\r\n```` x\r\n# b\r\n```\r\n `````\r\n\r\n c \r\n" = ["a".toList, [], "c".toList] := by
  decide +kernel

end Notebook
end NotebookPages
