import NotebookPages.Notebook.Summary
import NotebookPages.Proofs.Text.Cut
import NotebookPages.Proofs.Text.Phrase

/-! The title that a heading gives. It is the text of the heading on one line, but for the number signs that this text ends in, which
are taken for a closing sequence also where no space stands before them. -/

namespace NotebookPages.Notebook

variable {n : Notebook} {source h : Text} {lines : List Text}

theorem present?_eq_some_iff {value : Option Text} {t : Text} : present? value = some t ↔ value = some t ∧ ¬ Text.Blank t := by
  rw [present?, Option.filter_eq_some_iff, ← Text.allBlank_iff, Bool.not_eq_true, Bool.not_eq_true']

theorem present?_eq_none_iff {value : Option Text} : present? value = none ↔ ∀ t, value = some t → Text.Blank t := by
  simp [present?, Option.filter_eq_none_iff, Text.allBlank_iff]

/-- A heading without its marker, and without the number signs at its end. -/
def headingText (h : Text) : Text := Text.collapse (Text.dropEndWhile (· == '#') h)

theorem heading?_eq_some (kept : headingText h ≠ []) : heading? ("# " ++ h) = some (headingText h) := by
  have rest : Text.after? "# " ("# " ++ h) = some h := Text.after?_eq_some_iff.mpr rfl
  rw [heading?, rest]
  exact if_neg (mt List.isEmpty_iff.mp kept)

/-- The first line with the marker of a heading gives the title, unless nothing remains of it. -/
theorem findSome?_heading (first : lines.find? (Text.startsWith · "# ") = some ("# " ++ h)) (kept : headingText h ≠ []) :
    lines.findSome? heading? = some (headingText h) := by
  obtain ⟨-, front, back, rfl, before⟩ := List.find?_eq_some_iff_append.mp first
  have none : front.findSome? heading? = none := by
    rw [List.findSome?_eq_none_iff]
    intro line member
    have unmarked : Text.after? "# " line = none := by
      rw [Option.eq_none_iff_forall_ne_some]
      intro rest marked
      have other := before line member
      rw [Text.startsWith_iff.mpr ⟨rest, Text.after?_eq_some_iff.mp marked⟩] at other
      cases other
    rw [heading?, unmarked]
  rw [List.findSome?_append, none, Option.none_or, List.findSome?_cons, heading?_eq_some kept]

theorem title_of_heading (untitled : ∀ t, n.metadata.title = some t → Text.Blank t) (cell : n.markdownSources.head? = some source)
    (first : (proseLines source).find? (Text.startsWith · "# ") = some ("# " ++ h)) (kept : headingText h ≠ []) (p : Path) :
    n.title p = headingText h := by
  rw [title, present?_eq_none_iff.mpr untitled, cell]
  show ((proseLines source).findSome? heading?).getD (titleOfPath p) = headingText h
  rw [findSome?_heading first kept]
  rfl

theorem headingText_ne_nil (trimmed : Text.Trimmed h) (marked : ∃ c ∈ h, c ≠ '#') : headingText h ≠ [] := by
  obtain ⟨v, whole, dropped, -⟩ := Text.dropEndWhile_split (· == '#') h
  have kept : Text.dropEndWhile (· == '#') h ≠ [] := by
    intro none
    rw [none, List.nil_append] at whole
    obtain ⟨c, inside, other⟩ := marked
    exact other (by simpa using dropped c (whole ▸ inside))
  rw [headingText, Ne, Text.collapse_eq_nil_iff]
  obtain ⟨c, rest, shape⟩ := List.exists_cons_of_ne_nil kept
  intro blank
  have solid := trimmed.start c (by rw [whole, shape]; rfl)
  rw [blank c (shape ▸ List.mem_cons_self)] at solid
  cases solid

theorem headingText_eq_self_iff (trimmed : Text.Trimmed h) (single : Text.Single h) :
    headingText h = h ↔ h.getLast? ≠ some '#' ∧ ∀ c ∈ h, Text.isBlank c = true → c = ' ' := by
  constructor
  · intro same
    obtain ⟨v, whole, -, stop⟩ := Text.dropEndWhile_split (· == '#') h
    -- collapsing makes no text longer, so nothing was dropped
    have length := Text.length_collapse_le (Text.dropEndWhile (· == '#') h)
    have parts := congrArg List.length whole
    rw [show Text.collapse _ = headingText h from rfl, same] at length
    rw [List.length_append] at parts
    obtain rfl : v = [] := List.length_eq_zero_iff.mp (by omega)
    rw [List.append_nil] at whole
    rw [← whole] at stop
    rw [headingText, ← whole] at same
    refine ⟨fun last => ?_, (Text.collapse_eq_self_iff trimmed single).mp same⟩
    simpa using stop '#' last
  · rintro ⟨last, spaces⟩
    have whole : Text.dropEndWhile (· == '#') h = h := by
      apply Text.dropEndWhile_of_last
      intro c stop
      simpa using fun same : c = '#' => last (same ▸ stop)
    rw [headingText, whole]
    exact (Text.collapse_eq_self_iff trimmed single).mpr spaces

/-- Where the metadata give no title and a heading comes first in the first Markdown cell, the title is the text of that heading
exactly if it does not end in a number sign and holds no blanks but spaces. -/
theorem title_eq_heading_iff (untitled : ∀ t, n.metadata.title = some t → Text.Blank t) (cell : n.markdownSources.head? = some source)
    (first : (proseLines source).find? (Text.startsWith · "# ") = some ("# " ++ h)) (trimmed : Text.Trimmed h)
    (single : Text.Single h) (marked : ∃ c ∈ h, c ≠ '#') (p : Path) :
    n.title p = h ↔ h.getLast? ≠ some '#' ∧ ∀ c ∈ h, Text.isBlank c = true → c = ' ' := by
  rw [title_of_heading untitled cell first (headingText_ne_nil trimmed marked) p]
  exact headingText_eq_self_iff trimmed single

/-- A cell of another kind, a fence and a heading of a lower level stand in front of the heading. -/
def courseSource : Text := "Intro\n```\n# code\n```\n## C#\n  # #1: C# in depth \n# Later"

def course : Notebook := ⟨4, 5, { title := some " \n" }, [.raw none "# Raw", .markdown none courseSource, .markdown none "# Next"]⟩

theorem title_eq_heading_iff_course : (∀ t, course.metadata.title = some t → Text.Blank t) ∧
    course.markdownSources.head? = some courseSource ∧
    (proseLines courseSource).find? (Text.startsWith · "# ") = some ("# " ++ "#1: C# in depth") ∧
    Text.Trimmed "#1: C# in depth" ∧ Text.Single "#1: C# in depth" ∧ (∃ c ∈ ("#1: C# in depth" : Text), c ≠ '#') ∧
    course.title "x.mdx" = "#1: C# in depth" := by
  have untitled : ∀ t, course.metadata.title = some t → Text.Blank t := by
    intro t given
    obtain rfl : " \n" = t := Option.some.inj given
    exact Text.forall_mem_of_all (by decide)
  have first : (proseLines courseSource).find? (Text.startsWith · "# ") = some ("# " ++ "#1: C# in depth") := by decide +kernel
  have trimmed : Text.Trimmed "#1: C# in depth" := by
    constructor
    · intro c first
      obtain rfl : '#' = c := Option.some.inj first
      decide
    · intro c last
      obtain rfl : 'h' = c := Option.some.inj last
      decide
  have single : Text.Single "#1: C# in depth" := by
    unfold Text.Single
    decide
  have marked : ∃ c ∈ ("#1: C# in depth" : Text), c ≠ '#' := ⟨'1', by decide, by decide⟩
  exact ⟨untitled, rfl, first, trimmed, single, marked,
    (title_eq_heading_iff untitled rfl first trimmed single marked "x.mdx").mpr ⟨by decide, Text.forall_mem_of_all (by decide)⟩⟩

/-- The name of a language at the end of a heading loses its number sign, although it follows no space. -/
theorem title_not_heading : (Notebook.ofMarkdown "# C#").metadata.title = none ∧
    (Notebook.ofMarkdown "# C#").markdownSources.head? = some "# C#" ∧
    (proseLines "# C#").find? (Text.startsWith · "# ") = some ("# " ++ "C#") ∧ (∀ c ∈ ("C#" : Text), Text.isBlank c = false) ∧
    'C' ∈ ("C#" : Text) ∧ (Notebook.ofMarkdown "# C#").title "x.mdx" = "C" :=
  ⟨rfl, rfl, by decide, Text.forall_mem_of_all (by decide), by decide, by decide⟩

end NotebookPages.Notebook
