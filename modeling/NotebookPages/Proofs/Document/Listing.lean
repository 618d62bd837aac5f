import NotebookPages.Proofs.Document.Reporting

/-! The findings of a check as a list. They come in order and each once, stand on the lines of the whole document, header included,
and of each kind there are findings exactly if a repair counts a change of that kind. -/

namespace NotebookPages

open Markup

def Problem.rank (p : Problem) : Nat := Problem.all.idxOf p

/-- Findings are listed by line, and those of one line by kind. -/
def Finding.Before (f g : Finding) : Prop := f.line < g.line ∨ f.line = g.line ∧ f.problem.rank < g.problem.rank

theorem Problem.pairwise_all : Problem.all.Pairwise fun p q => p.rank < q.rank := by decide

theorem Problem.count_filter_all_le (kind : Problem → Bool) (p : Problem) : (Problem.all.filter kind).count p ≤ 1 := by
  have once : Problem.all.count p = 1 := by cases p <;> decide
  exact once ▸ List.filter_sublist.count_le p

theorem Report.count_ofProblems {p : Problem} (other : p ≠ .unclosedFence) (ps : List Problem) : (ofProblems ps).count p = ps.count p := by
  cases p with
  | unclosedFence => exact absurd rfl other
  | _ => rfl

namespace Document

variable {rules : Rules} {text : Text} {f : Finding} {p : Problem}

theorem pairwise_findingsFrom (offset number : Nat) (openFence : Option Nat) (lines : List Line) :
    (findingsFrom offset number openFence lines).Pairwise Finding.Before := by
  induction lines generalizing number with
  | nil => exact .nil
  | cons l lines ih =>
    rw [findingsFrom, List.pairwise_append]
    refine ⟨?_, ih (number + 1), ?_⟩
    · exact List.pairwise_map.mpr ((Problem.pairwise_all.filter _).imp fun below => Or.inr ⟨rfl, below⟩)
    · intro f here g later
      obtain ⟨p, -, rfl⟩ := List.mem_map.mp here
      obtain ⟨i, l', -, line, -⟩ := mem_findingsFrom_iff.mp later
      left
      show number + offset < g.line
      omega

theorem count_findingsFrom_le (other : p ≠ .unclosedFence) (offset number : Nat) (openFence : Option Nat) (lines : List Line) :
    ((findingsFrom offset number openFence lines).map Finding.problem).count p ≤ (lines.flatMap Line.problems).count p := by
  induction lines generalizing number with
  | nil => exact Nat.le_refl 0
  | cons l lines ih =>
    have once : (Problem.all.filter fun q =>
        l.problems.contains q || (q == .unclosedFence && openFence == some number)).count p ≤ l.problems.count p := by
      by_cases problem : p ∈ l.problems
      · exact Nat.le_trans (Problem.count_filter_all_le _ p) (List.count_pos_iff.mpr problem)
      · rw [List.count_eq_zero.mpr]
        · exact Nat.zero_le _
        · intro listed
          have found := (List.mem_filter.mp listed).2
          simp [problem, other] at found
    rw [findingsFrom, List.map_append, List.map_map, List.count_append, List.flatMap_cons, List.count_append]
    rw [show (Finding.problem ∘ _ : Problem → Problem) = id from rfl, List.map_id]
    exact Nat.add_le_add once (ih (number + 1))

theorem count_findingsFrom_eq_zero_iff (other : p ≠ .unclosedFence) (offset number : Nat) (openFence : Option Nat) (lines : List Line) :
    ((findingsFrom offset number openFence lines).map Finding.problem).count p = 0 ↔ (lines.flatMap Line.problems).count p = 0 := by
  rw [List.count_eq_zero, List.count_eq_zero, not_iff_not]
  constructor
  · intro found
    obtain ⟨f, member, rfl⟩ := List.mem_map.mp found
    obtain ⟨i, l, here, -, -, problem⟩ := mem_findingsFrom_iff.mp member
    exact List.mem_flatMap.mpr ⟨l, List.mem_of_getElem? here, problem.resolve_right fun fence => other fence.1⟩
  · intro found
    obtain ⟨l, member, problem⟩ := List.mem_flatMap.mp found
    obtain ⟨i, here⟩ := List.getElem?_of_mem member
    exact List.mem_map.mpr ⟨⟨_, p, _⟩, mem_findingsFrom_iff.mpr ⟨i, l, here, rfl, rfl, Or.inl problem⟩, rfl⟩

theorem report_fix (rules : Rules) (text : Text) : (fix rules text).2 = (Pass.run rules (split text).2).report := rfl

theorem diagnose_eq_nil_of_body (empty : (split text).2 = []) : diagnose rules text = [] := by
  show findingsFrom _ 1 (Pass.run rules (split text).2).openFence (Pass.run rules (split text).2).lines = []
  rw [empty]
  rfl

/-- A finding stands on a line of the document, whose start it shows. -/
theorem line_of_finding (member : f ∈ diagnose rules text) : ∃ number line, f.line = number + 1 ∧
    (Text.splitLines text)[number]? = some line ∧ f.excerpt = Text.shorten Finding.excerptLimit (Text.trim line) := by
  by_cases empty : (split text).2 = []
  · rw [diagnose_eq_nil_of_body empty] at member
    cases member
  · obtain ⟨front, count, lines, -⟩ := splitLines_of_body empty
    obtain ⟨number, l, here, line, excerpt, -⟩ := mem_diagnose_iff.mp member
    obtain ⟨source, same, settled⟩ := (passed_run rules _).settled here
    refine ⟨front.length + number, source, by omega, ?_, by rw [excerpt, settled.source_eq]⟩
    rw [lines, List.getElem?_append_right (Nat.le_add_right _ _), Nat.add_sub_cancel_left]
    exact same

/-- The findings of a check are strictly ordered by line and kind, each shows the start of the line of the document that it names,
and of every kind that a repair counts there are at most as many as the repair counts, and none exactly if it counts none. -/
theorem diagnose_ordered_and_counted (rules : Rules) (text : Text) :
    (diagnose rules text).Pairwise Finding.Before ∧
      (∀ f ∈ diagnose rules text, 1 ≤ f.line ∧ f.line ≤ (Text.splitLines text).length ∧
        ∃ line, (Text.splitLines text)[f.line - 1]? = some line ∧ f.excerpt = Text.shorten 80 (Text.trim line)) ∧
      ∀ p ≠ Problem.unclosedFence,
        ((diagnose rules text).map Finding.problem).count p ≤ (fix rules text).2.count p ∧
          (((diagnose rules text).map Finding.problem).count p = 0 ↔ (fix rules text).2.count p = 0) := by
  refine ⟨pairwise_findingsFrom _ _ _ _, fun f member => ?_, fun p other => ?_⟩
  · obtain ⟨number, line, same, here, excerpt⟩ := line_of_finding member
    have inside := (List.getElem?_eq_some_iff.mp here).1
    exact ⟨by omega, by omega, line, by rw [same]; exact here, excerpt⟩
  · rw [report_fix, Pass.report, Report.count_ofProblems other]
    exact ⟨count_findingsFrom_le other _ _ _ _, count_findingsFrom_eq_zero_iff other _ _ _ _⟩

/-- A header with carriage returns, a rule that opens the body, a line with two braces and a fence left open. -/
def ruledPage : Text := "---\r\ntitle: \x7b\r\n---\r\n---\n  a \x7bb\x7d </i>\n```"

theorem diagnose_ordered_and_counted_ruled :
    (⟨5, .unescapedBrace, "a \x7bb\x7d </i>"⟩ : Finding) ∈ diagnose {} ruledPage ∧
      (∃ line, (Text.splitLines ruledPage)[4]? = some line ∧ ("a \x7bb\x7d </i>" : Text) = Text.shorten 80 (Text.trim line)) ∧
      Problem.unescapedBrace ≠ .unclosedFence ∧
      ((diagnose {} ruledPage).map Finding.problem).count .unescapedBrace ≤ (fix {} ruledPage).2.count .unescapedBrace := by
  have member : (⟨5, .unescapedBrace, "a \x7bb\x7d </i>"⟩ : Finding) ∈ diagnose {} ruledPage := by decide +kernel
  have other : Problem.unescapedBrace ≠ .unclosedFence := by decide
  obtain ⟨-, located, counted⟩ := diagnose_ordered_and_counted {} ruledPage
  obtain ⟨-, -, shown⟩ := located _ member
  exact ⟨member, shown, other, (counted _ other).1⟩

end Document
end NotebookPages
