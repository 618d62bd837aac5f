import NotebookPages.Proofs.Markup.FencedLines
import NotebookPages.Proofs.Markup.ProseLines

/-! A block of code holds its content. The lines between its fences are the lines of the content, none of them closes the fence,
and a pass finds no prose in the block. -/

namespace NotebookPages

namespace Markup

variable {rules : Rules} {held : Option Fence} {t : Text} {sources : List Text} {ls : List Line}

theorem Passed.render_of_fenced (passed : Passed rules held sources ls) (fenced : Markup.proseLines held sources = []) :
    ls.map (Line.render rules.dialect) = sources := by
  induction passed with
  | nil => rfl
  | cons first _ ih =>
    rw [Markup.proseLines] at fenced
    cases first with
    | fenced inside =>
      rw [if_neg (by simp [inside])] at fenced
      rw [List.map_cons, ih fenced]
      rfl
    | prose _ outside | replaced outside =>
      rw [if_pos outside] at fenced
      cases fenced

/-- A text without prose is copied. -/
theorem sanitize_of_fenced (fenced : proseLines none (Text.splitLines t) = []) (rules : Rules) : sanitize rules t = t := by
  have copied := (passed_run rules t).render_of_fenced fenced
  rw [sanitize, Pass.output, copied]
  exact Text.join_splitLines t

end Markup

namespace Fence

variable {info : Text}

theorem joinWith_contentLines (content : Text) :
    Text.joinWith ['\n'] (contentLines content) = Text.dropEndWhile (fun c => c == '\n' || c == '\r') content := by
  rw [contentLines]
  split
  next empty => exact (List.isEmpty_iff.mp empty).symm
  next => exact Text.join_splitLines _

/-- The first line of a block opens a fence, its last line closes it, and the lines in between, which are those of the content
without its final line ends, stay inside. So every pass copies the block. -/
theorem block_holds_content (plain : '`' ∉ info) (line : Text.IsLine info) (content : Text) :
    ∃ fence : Fence,
      fence.Encloses (contentLines content) (Text.splitLines (block info content)) ∧
      Text.joinWith ['\n'] (contentLines content) = Text.dropEndWhile (fun c => c == '\n' || c == '\r') content ∧
      (∀ number, 0 < number → number < (Text.splitLines (block info content)).length → holding (block info content) number = some fence) ∧
      after none (Text.splitLines (block info content)) = none ∧
      ∀ rules, Markup.sanitize rules (block info content) = block info content := by
  have encloses := block_encloses plain content
  rw [Text.splitLines_line line] at encloses
  refine ⟨_, encloses, joinWith_contentLines content, fun number first last => encloses.after_take first last, encloses.after_eq_none, ?_⟩
  exact Markup.sanitize_of_fenced (Markup.proseLines_of_encloses encloses)

/-- Content with a run of four backticks, a fence of its own, a carriage return, braces and blank lines at its end. -/
def nestedListing : Text := "a ```` b\r\n ``` \n\n\x7bc\x7d\n\r\n"

theorem block_holds_content_nested :
    '`' ∉ ("python \x7bx\x7d" : Text) ∧ Text.IsLine "python \x7bx\x7d" ∧
      ∃ fence : Fence, fence.Encloses (contentLines nestedListing) (Text.splitLines (block "python \x7bx\x7d" nestedListing)) ∧
        ∀ rules, Markup.sanitize rules (block "python \x7bx\x7d" nestedListing) = block "python \x7bx\x7d" nestedListing := by
  have plain : '`' ∉ ("python \x7bx\x7d" : Text) := by decide
  have line : Text.IsLine "python \x7bx\x7d" := by
    unfold Text.IsLine
    decide
  obtain ⟨fence, encloses, -, -, -, copied⟩ := block_holds_content plain line nestedListing
  exact ⟨plain, line, fence, encloses, copied⟩

end Fence
end NotebookPages
