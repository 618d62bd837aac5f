import NotebookPages.Proofs.Document.Splitting
import NotebookPages.Proofs.Markup.ProseLines

/-! What a check finds in a repaired document. A check is a pass over the body, and the body of a repaired document is
what a pass wrote, so nothing is found exactly where every line of the body is stable. -/

namespace NotebookPages

open Markup

namespace Markup

variable {rules : Rules} {t : Text}

/-- What a pass wrote has no problems exactly if it is stable. -/
theorem clean_sanitize_iff (fits : (rules.dialect.comment longLineNote).length ≤ rules.maxLine) :
    Clean (Pass.run rules (sanitize rules t)).problems ↔ ∀ l ∈ (Pass.run rules t).lines, l.Stable rules := by
  constructor
  · intro clean
    have silent : ∀ l ∈ (Pass.run rules (sanitize rules t)).lines, ∀ p ∈ l.problems, p = .unclosedFence :=
      fun l member p inside => clean p (List.mem_flatMap.mpr ⟨l, member, inside⟩)
    have paired : ∀ l ∈ (Pass.run rules (sanitize rules t)).lines, .unclosedTag ∉ l.problems :=
      fun l member inside => Problem.noConfusion (silent l member _ inside)
    refine Quiet.stable ⟨fun l member inside => Problem.noConfusion (silent l member _ inside), paired, ?_⟩
    intro l member _ s replaced
    have again : .replaced s ∈ (Pass.run rules (sanitize rules t)).lines := by
      rw [lines_of_paired paired, ← replaced]
      exact List.mem_map_of_mem member
    exact Problem.noConfusion (silent _ again .longLine List.mem_cons_self)
  · intro stable p member
    rw [Pass.problems, run_sanitize_of_stable stable] at member
    obtain ⟨_, written, problem⟩ := List.mem_flatMap.mp member
    obtain ⟨l, inside, rfl⟩ := List.mem_map.mp written
    obtain ⟨held, source, -, settled⟩ := (passed_run rules t).exists_settled inside
    rw [(settled.again_of_stable (stable l inside)).2.2 fits] at problem
    cases problem

theorem sanitize_nil (rules : Rules) : sanitize rules [] = [] := by
  simp [sanitize, Pass.run, Pass.output, Text.splitLines, Text.split, readLines, Line.read, Fence.isProse, Fence.open?,
    Text.trimStart, Line.ofProse, scanLine, scanFrom, Piece.totalWidth, settleLines, Line.settle, Piece.settle, Line.render,
    Piece.weld, Line.guardFence]

end Markup

namespace Document

variable {rules : Rules} {text : Text}

theorem mem_findingsFrom_iff {f : Finding} {offset number : Nat} {openFence : Option Nat} {lines : List Line} :
    f ∈ findingsFrom offset number openFence lines ↔
      ∃ i l, lines[i]? = some l ∧ f.line = number + i + offset ∧ f.excerpt = Text.shorten Finding.excerptLimit (Text.trim l.source) ∧
        (f.problem ∈ l.problems ∨ f.problem = .unclosedFence ∧ openFence = some (number + i)) := by
  induction lines generalizing number with
  | nil => simp [findingsFrom]
  | cons l lines ih =>
    have listed : f.problem ∈ Problem.all := by cases f.problem <;> decide
    have here : f ∈ (Problem.all.filter fun p =>
          l.problems.contains p || (p == .unclosedFence && openFence == some number)).map
            (⟨number + offset, ·, Text.shorten Finding.excerptLimit (Text.trim l.source)⟩ : Problem → Finding) ↔
        f.line = number + offset ∧ f.excerpt = Text.shorten Finding.excerptLimit (Text.trim l.source) ∧
          (f.problem ∈ l.problems ∨ f.problem = .unclosedFence ∧ openFence = some number) := by
      rw [List.mem_map]
      constructor
      · rintro ⟨p, inside, rfl⟩
        exact ⟨rfl, rfl, by simpa using (List.mem_filter.mp inside).2⟩
      · rintro ⟨line, excerpt, found⟩
        refine ⟨f.problem, List.mem_filter.mpr ⟨listed, by simpa using found⟩, ?_⟩
        rw [← line, ← excerpt]
    rw [findingsFrom, List.mem_append, here, ih]
    constructor
    · rintro (⟨line, found⟩ | ⟨i, l', inside, line, found⟩)
      · exact ⟨0, l, rfl, line, found⟩
      · exact ⟨i + 1, l', inside, by omega, by rwa [Nat.add_right_comm, Nat.add_assoc] at found⟩
    · rintro ⟨i, l', inside, line, found⟩
      cases i with
      | zero =>
        obtain rfl := Option.some.inj inside
        exact Or.inl ⟨line, found⟩
      | succ i => exact Or.inr ⟨i, l', inside, by omega, by rwa [Nat.add_right_comm, Nat.add_assoc]⟩

theorem clean_findingsFrom_iff (offset number : Nat) (openFence : Option Nat) (lines : List Line) :
    (∀ f ∈ findingsFrom offset number openFence lines, f.problem = .unclosedFence) ↔ Clean (lines.flatMap Line.problems) := by
  constructor
  · intro clean p member
    obtain ⟨l, inside, problem⟩ := List.mem_flatMap.mp member
    obtain ⟨i, here⟩ := List.getElem?_of_mem inside
    exact clean ⟨number + i + offset, p, _⟩ (mem_findingsFrom_iff.mpr ⟨i, l, here, rfl, rfl, Or.inl problem⟩)
  · intro clean f member
    obtain ⟨i, l, here, -, -, found⟩ := mem_findingsFrom_iff.mp member
    rcases found with problem | ⟨same, -⟩
    · exact clean _ (List.mem_flatMap.mpr ⟨l, List.mem_of_getElem? here, problem⟩)
    · exact same

/-- The findings of a document are the problems of a pass over its body. -/
theorem clean_diagnose_iff (rules : Rules) (text : Text) :
    (∀ f ∈ diagnose rules text, f.problem = .unclosedFence) ↔ Clean (Pass.run rules (split text).2).problems :=
  clean_findingsFrom_iff _ _ _ _

theorem fix_eq (rules : Rules) (text : Text) :
    (fix rules text).1 = (split text).1.getD [] ++ sanitize rules (split text).2 := rfl

theorem split_fix_of_header {header body : Text} (found : split text = (some header, body)) :
    split (fix rules text).1 = (some header, sanitize rules body) := by
  rw [fix_eq, found]
  exact split_append found fun empty => by rw [empty, sanitize_nil]

theorem split_of_none (none : (split text).1 = none) : split text = (Option.none, text) := by
  unfold split at none ⊢
  split
  next => rfl
  next mark rest opened =>
    split
    next => rfl
    next front back closed => simp [opened, closed] at none

/-- The repair of a document that gains no header keeps what is header and what is body. -/
theorem split_fix (kept : hasHeader (fix rules text).1 = hasHeader text) :
    split (fix rules text).1 = ((split text).1, sanitize rules (split text).2) := by
  cases found : split text with
  | mk header body =>
    cases header with
    | some header => exact split_fix_of_header found
    | none =>
      have whole : (fix rules text).1 = sanitize rules body := by
        rw [fix_eq, found]
        rfl
      have absent : (split (fix rules text).1).1 = none := by
        rw [hasHeader, hasHeader, found] at kept
        exact Option.isSome_eq_false_iff.mp kept |> Option.isNone_iff_eq_none.mp
      rw [split_of_none absent, whole]

/-- Nothing but an open fence is found in a repaired document exactly if every line of its body is stable. Where removed
markup has uncovered a header, it is the rest of the document that is read. -/
theorem diagnose_fix_clean_iff (rules : Rules) (fits : (rules.dialect.comment longLineNote).length ≤ rules.maxLine) (text : Text) :
    (∀ f ∈ diagnose rules (fix rules text).1, f.problem = .unclosedFence) ↔
      if hasHeader (fix rules text).1 = hasHeader text then ∀ l ∈ (Pass.run rules (split text).2).lines, l.Stable rules
      else Clear rules (Text.splitLines (split (fix rules text).1).2) := by
  rw [clean_diagnose_iff]
  split
  next kept => rw [split_fix kept, clean_sanitize_iff fits]
  next => exact clean_run_iff rules _

theorem diagnose_fix_clean_braces :
    (Dialect.mdx.comment longLineNote).length ≤ 2000 ∧
      ∀ f ∈ diagnose {} (fix {} "---\n---\nUse {name}: a < b <i>").1, f.problem = .unclosedFence :=
  ⟨by decide, (diagnose_fix_clean_iff {} (by decide) _).mpr (by rw [if_pos (by decide +kernel)]; decide +kernel)⟩

/-- An image is found once an autolink is written as a link, and a tag has lost its partner to an uncovered header. -/
theorem diagnose_fix_not_clean :
    (diagnose {} (fix {} "[x](data:a <https://e.com>").1).map Finding.problem = [.dataUrl] ∧
      (diagnose {} (fix {} "<i>---\n<b>\n---\n</b>").1).map Finding.problem = [.unclosedTag] := by
  decide +kernel

end Document
end NotebookPages
