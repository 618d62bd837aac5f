import NotebookPages.Proofs.Document.Checking
import NotebookPages.Proofs.Markup.Dashes

/-! Where the body of a repaired document begins. A header is kept as it is, so the body moves only where a document
without a header gains one: removed markup has uncovered a delimiter on the first line, and some later line delimits too. -/

namespace NotebookPages.Document

open Markup

variable {rules : Rules} {text line : Text} {lines : List Text} {ls : List Line}

/-- The first line opens a header, which a later line closes. -/
def Headed : List Text → Prop
  | [] => False
  | first :: rest =>
    (first = Header.delimiter ∨ first = Header.delimiter ++ ['\r']) ∧ ∃ line ∈ rest, Text.trimEnd line = Header.delimiter

theorem trimEnd_eq_delimiter_iff :
    Text.trimEnd line = Header.delimiter ↔ ∃ ends, Text.Blank ends ∧ line = Header.delimiter ++ ends := by
  constructor
  · intro same
    obtain ⟨ends, whole, blank, -⟩ := Text.dropEndWhile_split Text.isBlank line
    exact ⟨ends, blank, by rw [← same]; exact whole⟩
  · rintro ⟨ends, blank, rfl⟩
    rw [Text.trimEnd_of_blank blank]
    decide

theorem cutClosing_isSome_iff : (cutClosing lines).isSome = true ↔ ∃ line ∈ lines, Text.trimEnd line = Header.delimiter := by
  induction lines with
  | nil => simp [cutClosing]
  | cons line lines ih =>
    rw [cutClosing, List.exists_mem_cons_iff, ← ih]
    split
    next closing => simp [closing]
    next inside => simp [inside]

/-- The end of a line is a blank, and a line that holds nothing delimits nothing. -/
theorem exists_delimiter_endedLines_iff (text : Text) : (∃ line ∈ Text.endedLines text, Text.trimEnd line = Header.delimiter) ↔
    ∃ line ∈ Text.splitLines text, Text.trimEnd line = Header.delimiter := by
  obtain ⟨front, last, lines, ended⟩ := Text.endedLines_of_splitLines text
  have newline : Text.Blank ['\n'] := by simp [Text.Blank, Text.isBlank]
  have same : ∀ line, Text.trimEnd (Text.line line) = Text.trimEnd line := fun _ => Text.trimEnd_of_blank newline
  rw [lines, ended]
  by_cases empty : last = []
  · subst empty
    have nothing : Text.trimEnd [] ≠ Header.delimiter := by decide
    simp [or_and_right, exists_or, same, nothing]
  · simp [or_and_right, exists_or, same, empty]

theorem hasHeader_of_opening {mark rest : Text} (opened : opening? text = some (mark, rest)) :
    hasHeader text = true ↔ ∃ line ∈ Text.splitLines rest, Text.trimEnd line = Header.delimiter := by
  rw [← exists_delimiter_endedLines_iff, ← cutClosing_isSome_iff, hasHeader, split, opened]
  cases closed : cutClosing (Text.endedLines rest) with
  | none => simp [closed]
  | some found => simp [closed]

/-- Whether a document has a header is told by its lines. -/
theorem hasHeader_iff : hasHeader text = true ↔ Headed (Text.splitLines text) := by
  constructor
  · intro header
    cases opened : opening? text with
    | none => simp [hasHeader, split, opened] at header
    | some found =>
      obtain ⟨mark, rest⟩ := found
      have closed := (hasHeader_of_opening opened).mp header
      obtain ⟨rfl | rfl, rfl⟩ := opening?_eq_some_iff.mp opened
      · have lines := Text.splitLines_append Header.delimiter rest
        exact (congrArg Headed lines).mpr ⟨Or.inl rfl, closed⟩
      · have lines := Text.splitLines_append (Header.delimiter ++ ['\r']) rest
        exact (congrArg Headed lines).mpr ⟨Or.inr rfl, closed⟩
  · intro headed
    obtain ⟨first, rest, lines⟩ := List.exists_cons_of_ne_nil (Text.splitLines_ne_nil text)
    rw [lines] at headed
    obtain ⟨opens, line, inside, closing⟩ := headed
    have whole := Text.join_splitLines text
    rw [lines, Text.joinWith_cons _ _ (List.ne_nil_of_mem inside)] at whole
    have opened : ∃ mark, opening? text = some (mark, Text.joinWith ['\n'] rest) := by
      rcases opens with rfl | rfl
      · exact ⟨_, opening?_eq_some_iff.mpr ⟨Or.inl rfl, whole.symm⟩⟩
      · exact ⟨_, opening?_eq_some_iff.mpr ⟨Or.inr rfl, whole.symm⟩⟩
    obtain ⟨mark, opened⟩ := opened
    have plain : ∀ part ∈ rest, Text.IsLine part := fun part member =>
      Text.isLine_of_mem (lines ▸ List.mem_cons_of_mem first member)
    refine (hasHeader_of_opening opened).mpr ⟨line, ?_, closing⟩
    rwa [Text.splitLines_join (List.ne_nil_of_mem inside) plain]

/-- The lines of a pass are written as a header: the first as a delimiter, and a later one as a delimiter with blanks. -/
def Opens (d : Dialect) : List Line → Prop
  | [] => False
  | first :: rest => (first.Dashed d [] ∨ first.Dashed d ['\r']) ∧ ∃ l ∈ rest, ∃ ends, Text.Blank ends ∧ l.Dashed d ends

theorem headed_render_iff {held : Option Fence} {sources : List Text} (passed : Passed rules held sources ls) :
    Headed (ls.map (Line.render rules.dialect)) ↔ Opens rules.dialect ls := by
  cases passed with
  | nil => exact Iff.rfl
  | @cons _ _ _ first _ settled others =>
    have nothing : Text.Blank [] := by simp [Text.Blank]
    have feed : Text.Blank ['\r'] := by simp [Text.Blank, Text.isBlank]
    have opens := settled.render_eq_dashes_iff nothing
    rw [List.append_nil] at opens
    rw [List.map_cons, Headed, Opens, opens, settled.render_eq_dashes_iff feed]
    refine and_congr_right fun _ => ?_
    constructor
    · rintro ⟨line, written, closing⟩
      obtain ⟨l, member, rfl⟩ := List.mem_map.mp written
      obtain ⟨held, source, -, settled⟩ := others.exists_settled member
      obtain ⟨ends, blank, same⟩ := trimEnd_eq_delimiter_iff.mp closing
      exact ⟨l, member, ends, blank, (settled.render_eq_dashes_iff blank).mp same⟩
    · rintro ⟨l, member, ends, blank, dashed⟩
      obtain ⟨held, source, -, settled⟩ := others.exists_settled member
      have same := (settled.render_eq_dashes_iff blank).mpr dashed
      exact ⟨_, List.mem_map_of_mem member, trimEnd_eq_delimiter_iff.mpr ⟨ends, blank, same⟩⟩

theorem hasHeader_sanitize_iff (rules : Rules) (text : Text) :
    hasHeader (sanitize rules text) = true ↔ Opens rules.dialect (Pass.run rules text).lines := by
  rw [hasHeader_iff, splitLines_sanitize]
  exact headed_render_iff (passed_run rules text)

/-- A repair keeps what is header and what is body, unless removing markup from a document without a header leaves dashes
where a header begins and ends. -/
theorem split_fix_iff (rules : Rules) (text : Text) :
    split (fix rules text).1 = ((split text).1, sanitize rules (split text).2) ↔
      ¬ (hasHeader text = false ∧ Opens rules.dialect (Pass.run rules text).lines) := by
  cases found : split text with
  | mk header body =>
    cases header with
    | some header =>
      have present : hasHeader text = true := by rw [hasHeader, found]; rfl
      simp [split_fix_of_header found, present]
    | none =>
      have absent : hasHeader text = false := by rw [hasHeader, found]; rfl
      obtain rfl : text = body := by
        have none : (split text).1 = none := by rw [found]
        exact (Prod.mk.inj ((split_of_none none).symm.trans found)).2
      have written : (fix rules text).1 = sanitize rules text := by
        rw [fix_eq, found]
        rfl
      rw [written, ← hasHeader_sanitize_iff, absent]
      constructor
      · intro same
        simp [hasHeader, same]
      · intro kept
        refine split_of_none ?_
        simpa [hasHeader] using kept

/-- Once the tag in front is removed, the document begins with a header. -/
theorem split_fix_uncovers :
    (split "<i>---\nx\n---").1 = none ∧ split (fix {} "<i>---\nx\n---").1 = (some "---\nx\n---".toList, []) ∧
      split (fix {} "<i>---\nx\n---").1 ≠
        ((split "<i>---\nx\n---").1, sanitize {} (split "<i>---\nx\n---").2) := by
  decide +kernel

end NotebookPages.Document
