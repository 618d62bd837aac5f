import NotebookPages.Proofs.Markup.Stability

/-! When sanitizing twice is sanitizing once. A text that is its own second pass loses nothing in it, since every image
left out and every tag removed would make a line lighter. -/

namespace NotebookPages.Markup

variable {rules : Rules} {held : Option Fence} {source : Text} {l : Line} {sources : List Text} {ls : List Line} {d : Dialect}

theorem weight_guardFence (w : Text) : weight (Line.guardFence w) = weight w := by
  rcases guardFence_cases w with same | ⟨blanks, marks, -, shape, guarded⟩
  · rw [same]
  · rw [guarded, shape, weight_append, weight_append]
    rfl

/-- A line that is written as it was read has lost nothing. -/
theorem Line.Settled.kept (settled : l.Settled rules held source) (fixed : l.render rules.dialect = source) :
    .dataUrl ∉ l.problems ∧ .unclosedTag ∉ l.problems := by
  cases settled with
  | fenced | replaced => simp [Line.problems]
  | prose flags =>
    have bound : weight (Piece.weld rules.dialect none false false (Piece.settle flags (scanLine rules.dialect source))) +
        Piece.totalCost Piece.loss (Piece.settle flags (scanLine rules.dialect source)) ≤ weight source :=
      weight_weld (reading_scan rules.dialect true none source)
    rw [← weight_guardFence, show Line.guardFence _ = source from fixed] at bound
    have none : Piece.totalCost Piece.loss (Piece.settle flags (scanLine rules.dialect source)) = 0 := by omega
    have idle : ∀ p ∈ Piece.settle flags (scanLine rules.dialect source), p.problem? ≠ some .dataUrl ∧ p.problem? ≠ some .unclosedTag := by
      intro p member
      have loss := Piece.cost_eq_zero none p member
      cases p with
      | text own written problem => simpa [Piece.loss, Piece.problem?] using loss
      | tag => simp [Piece.problem?]
      | dropped | stray => cases loss
    constructor
    · intro inside
      obtain ⟨p, member, problem⟩ := List.mem_filterMap.mp inside
      exact (idle p member).1 problem
    · intro inside
      obtain ⟨p, member, problem⟩ := List.mem_filterMap.mp inside
      exact (idle p member).2 problem

theorem Passed.fixed (passed : Passed rules held sources ls) (fixed : ls.map (Line.render rules.dialect) = sources) :
    ∀ l ∈ ls, ∃ held source, l.Settled rules held source ∧ l.render rules.dialect = source := by
  induction passed with
  | nil => simp
  | @cons held source _ _ _ first _ ih =>
    obtain ⟨here, later⟩ := List.cons.inj fixed
    intro l member
    rcases List.mem_cons.mp member with rfl | member
    · exact ⟨held, source, first, here⟩
    · exact ih later l member

theorem eq_comment_of_guardFence {w : Text} (same : Line.guardFence w = d.comment longLineNote) : w = d.comment longLineNote := by
  have front : (Text.trimStart (d.comment longLineNote)).head? ≠ some '\\' := by cases d <;> decide
  rwa [guardFence_of_head (by rwa [same])] at same

/-- Written prose is longer than the lines admitted only by the backslash of a guard. -/
theorem Line.Settled.length_le {s : Text} {ps : List Piece} (settled : (Line.prose s ps).Settled rules held source) :
    (Piece.weld rules.dialect none false false ps).length ≤ rules.maxLine := by
  cases settled with
  | prose flags _ fits => exact Nat.le_trans (length_weld_le (reading_scan rules.dialect true none source)) fits

theorem render_of_again {flags : List Bool} (same : (settleLines flags (ls.map (Line.again rules))).map (Line.render d) = ls.map (Line.render d)) :
    ∀ l ∈ ls, ∃ flags, ((l.again rules).settle flags).render d = l.render d := by
  induction ls generalizing flags with
  | nil => simp
  | cons first ls ih =>
    obtain ⟨here, later⟩ := List.cons.inj same
    intro l member
    rcases List.mem_cons.mp member with rfl | member
    · exact ⟨flags, here⟩
    · exact ih later l member

theorem Line.Settled.short_of_fixed {s s' : Text} {ps : List Piece} {flags : List Bool} (settled : (Line.prose s ps).Settled rules held source)
    (fixed : (((Line.prose s ps).again rules).settle flags).render rules.dialect = (Line.prose s ps).render rules.dialect) :
    (Line.prose s ps).again rules ≠ .replaced s' := by
  intro replaced
  have short := settled.length_le
  rw [replaced] at fixed
  -- the comment stands where the line stood, so the line was the comment, which the first pass admitted
  have whole := eq_comment_of_guardFence fixed.symm
  have again : (Line.prose s ps).again rules = Line.ofProse rules (Line.guardFence (Piece.weld rules.dialect none false false ps)) := rfl
  rw [again, whole, guardFence_of_none (comment_open? _ _), ofProse_comment] at replaced
  rw [whole] at short
  rw [if_neg (Nat.not_lt.mpr short)] at replaced
  cases replaced

/-- A pass over its own output changes nothing exactly if every line it wrote is stable. -/
theorem sanitize_sanitize_eq_iff (rules : Rules) (t : Text) :
    sanitize rules (sanitize rules t) = sanitize rules t ↔ ∀ l ∈ (Pass.run rules t).lines, l.Stable rules := by
  have passed := passed_run rules t
  constructor
  · intro same
    have lines : (Pass.run rules (sanitize rules t)).lines.map (Line.render rules.dialect) =
        (Pass.run rules t).lines.map (Line.render rules.dialect) := by
      rw [← splitLines_sanitize, ← splitLines_sanitize, same]
    have again := passed_run rules (sanitize rules t)
    rw [splitLines_sanitize, ← lines] at again
    have kept := again.fixed rfl
    refine Quiet.stable ⟨fun l member => ?_, fun l member => ?_, fun l member => ?_⟩
    · obtain ⟨held, source, settled, fixed⟩ := kept l member
      exact (settled.kept fixed).1
    · obtain ⟨held, source, settled, fixed⟩ := kept l member
      exact (settled.kept fixed).2
    · rintro ⟨s, ps, rfl⟩ s'
      obtain ⟨held, source, -, settled⟩ := passed.exists_settled member
      rw [run_sanitize] at lines
      obtain ⟨flags, fixed⟩ := render_of_again lines _ member
      exact settled.short_of_fixed fixed
  · intro stable
    have read := run_sanitize_of_stable stable
    rw [sanitize, Pass.output, read, List.map_map]
    refine congrArg _ (List.map_congr_left fun l member => ?_)
    obtain ⟨held, source, -, settled⟩ := passed.exists_settled member
    exact (settled.again_of_stable (stable l member)).2.1

/-- Each condition of stability can fail: an autolink that is written as a link closes the bracket before it, a tag
without its blanks reads as an autolink, and the backslash of a guard exceeds the limit. -/
theorem sanitize_not_idempotent :
    sanitize {} (sanitize {} "[x](data:a <https://e.com>") ≠ sanitize {} "[x](data:a <https://e.com>" ∧
      sanitize ⟨.markdown, 2000⟩ (sanitize ⟨.markdown, 2000⟩ "<mailto:x >y</mailto:x>") ≠
        sanitize ⟨.markdown, 2000⟩ "<mailto:x >y</mailto:x>" ∧
      sanitize ⟨.mdx, 30⟩ (sanitize ⟨.mdx, 30⟩ "``` ![](data:`)") ≠ sanitize ⟨.mdx, 30⟩ "``` ![](data:`)" := by
  decide +kernel

end NotebookPages.Markup
