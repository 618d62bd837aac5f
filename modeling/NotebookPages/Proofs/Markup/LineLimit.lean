import NotebookPages.Proofs.Markup.FencedLines
import NotebookPages.Proofs.Markup.Idempotence
import NotebookPages.Proofs.Markup.LineStarts

/-! The length of the lines that a pass writes. The pieces of a line are measured before tags are paired; what is written for
them is not longer, since removed markup counts for more than the blank in its place. Only the backslash of a guard is not
counted. -/

namespace NotebookPages.Markup

open Piece

/-- The line is written as a fence that is just as long as a line may be, so the backslash that keeps it prose is one too many. -/
def Line.Brims (rules : Rules) : Line → Prop
  | .prose _ ps => Fence.open? (weld rules.dialect none false false ps) ≠ none ∧
      (weld rules.dialect none false false ps).length = rules.maxLine
  | _ => False

variable {rules : Rules} {held : Option Fence} {source written t : Text} {l : Line} {ps : List Piece} {number : Nat}

theorem Line.Settled.length_render (settled : (Line.prose source ps).Settled rules held source) :
    ((Line.prose source ps).render rules.dialect).length ≤ rules.maxLine + 1 ∧
      (rules.maxLine < ((Line.prose source ps).render rules.dialect).length ↔ (Line.prose source ps).Brims rules) := by
  have short := settled.length_le
  by_cases opens : Fence.open? (weld rules.dialect none false false ps) = none
  · rw [Line.render, guardFence_of_none opens]
    refine ⟨Nat.le_succ_of_le short, fun long => absurd short (Nat.not_le_of_gt long), fun brims => absurd opens brims.1⟩
  · rw [Line.render, length_guardFence opens]
    refine ⟨Nat.succ_le_succ short, fun long => ⟨opens, Nat.le_antisymm short (Nat.lt_succ_iff.mp long)⟩, fun brims => ?_⟩
    exact Nat.lt_succ_of_le (Nat.le_of_eq brims.2.symm)

/-- A line that fills the limit as a fence lost no markup, so its source begins with the backtick that the fence begins with. -/
theorem Line.Settled.backtick_of_brims (settled : (Line.prose source ps).Settled rules held source)
    (brims : (Line.prose source ps).Brims rules) : (Text.trimStart source).head? = some '`' := by
  cases settled with
  | prose flags outside fits =>
    obtain ⟨opens, full⟩ := brims
    obtain ⟨fence, found⟩ := Option.ne_none_iff_exists'.mp opens
    obtain ⟨blanks, info, opening⟩ := Fence.open?_sound found
    obtain ⟨n, long⟩ : ∃ n, fence.length = n + 3 := Nat.exists_eq_add_of_le' opening.long
    have shape := opening.shape
    -- whatever is written first of a line of full length stands first in its source
    have starts : ∀ {x e}, (∀ c ∈ x, Echoes rules.dialect c) → isWrittenMark e = false →
        x ++ [e] <+: weld rules.dialect none false false (Piece.settle flags (scanLine rules.dialect source)) → x ++ [e] <+: source := by
      intro x e echoes other written
      rcases prefix_of_weld (reading_scan rules.dialect true none source) echoes other written with here | ⟨-, shorter⟩
      · exact here
      · exact absurd (Nat.lt_of_lt_of_le shorter fits) (Nat.not_lt.mpr (Nat.le_of_eq full.symm))
    rcases opening.marker with tick | tilde
    · have here : blanks ++ ['`'] <+: source := by
        refine starts (fun c inside => echoes_of_isBlank (opening.blank c inside)) (by decide) ?_
        rw [shape, tick, long, List.replicate_succ]
        exact ⟨List.replicate (n + 2) '`' ++ info, by simp⟩
      obtain ⟨rest, rfl⟩ := here
      rw [List.append_assoc, Text.trimStart_of_blank opening.blank]
      rfl
    · have here : (blanks ++ ['~', '~']) ++ ['~'] <+: source :=
        starts (echoes_tildes opening.blank) (by decide) (by simpa using opening.tildes tilde)
      rw [List.append_assoc] at here
      exact absurd (isProse_iff.mp outside).2 (Fence.open?_tildes opening.blank here)

/-- Outside fences every line is a note or within the limit, unless the guard of a would-be fence adds one character to a line
that fills the limit; the source of such a line begins with a backtick. -/
theorem overlong_iff (here : (Text.splitLines t)[number]? = some source)
    (there : (Text.splitLines (sanitize rules t))[number]? = some written)
    (prose : Fence.isProse (Fence.holding (sanitize rules t) number) written = true)
    (shown : written ≠ rules.dialect.comment longLineNote) :
    written.length ≤ rules.maxLine + 1 ∧
      (rules.maxLine < written.length ↔ ∃ l, (Pass.run rules t).lines[number]? = some l ∧ l.Brims rules) ∧
      (rules.maxLine < written.length → (Text.trimStart source).head? = some '`') := by
  rw [holding_sanitize] at prose
  rw [splitLines_sanitize, List.getElem?_map, Option.map_eq_some_iff] at there
  obtain ⟨l, line, rfl⟩ := there
  obtain ⟨source', same, settled⟩ := (passed_run rules t).settled line
  obtain rfl : source = source' := Option.some.inj (here.symm.trans same)
  have only : (∃ l, (Pass.run rules t).lines[number]? = some l ∧ l.Brims rules) ↔ l.Brims rules := by simp [line]
  rw [only]
  cases settled with
  | fenced inside =>
    rw [Fence.holding, Line.render] at prose
    rw [prose] at inside
    cases inside
  | replaced => exact absurd rfl shown
  | prose flags outside fits =>
    have settled := Line.Settled.prose flags outside fits
    obtain ⟨bound, exact'⟩ := settled.length_render
    exact ⟨bound, exact', fun long => settled.backtick_of_brims (exact'.mp long)⟩

/-- A run of backticks that opens no fence, since the address of an image behind it holds a backtick. -/
def brimming : Text := "``` ![](data:`)"

def brimmingWritten : Text := "\\``` _(embedded image omitted)_"

theorem overlong_iff_brimming :
    (Text.splitLines ("a\n" ++ brimming))[1]? = some brimming ∧
      (Text.splitLines (sanitize ⟨.mdx, 30⟩ ("a\n" ++ brimming)))[1]? = some brimmingWritten ∧
      Fence.isProse (Fence.holding (sanitize ⟨.mdx, 30⟩ ("a\n" ++ brimming)) 1) brimmingWritten = true ∧
      brimmingWritten ≠ Dialect.mdx.comment longLineNote ∧
      (∃ l, (Pass.run ⟨.mdx, 30⟩ ("a\n" ++ brimming)).lines[1]? = some l ∧ l.Brims ⟨.mdx, 30⟩) ∧
      (Text.trimStart brimming).head? = some '`' := by
  have here : (Text.splitLines ("a\n" ++ brimming))[1]? = some brimming := rfl
  obtain ⟨there, prose⟩ : (Text.splitLines (sanitize ⟨.mdx, 30⟩ ("a\n" ++ brimming)))[1]? = some brimmingWritten ∧
      Fence.isProse (Fence.holding (sanitize ⟨.mdx, 30⟩ ("a\n" ++ brimming)) 1) brimmingWritten = true := by decide +kernel
  have shown : brimmingWritten ≠ Dialect.mdx.comment longLineNote := by decide
  have long : 30 < brimmingWritten.length := by decide
  obtain ⟨-, brims, backtick⟩ := overlong_iff here there prose shown
  exact ⟨here, there, prose, shown, brims.mp long, backtick long⟩

/-- The guard is not counted: a line of prose of 31 characters is written where 30 are allowed. -/
theorem limit_exceeded :
    (Text.splitLines (sanitize ⟨.mdx, 30⟩ brimming))[0]? = some brimmingWritten ∧
      Fence.isProse (Fence.holding (sanitize ⟨.mdx, 30⟩ brimming) 0) brimmingWritten = true ∧
      brimmingWritten ≠ Dialect.mdx.comment longLineNote ∧ ¬ brimmingWritten.length ≤ 30 := by
  decide +kernel

end NotebookPages.Markup
