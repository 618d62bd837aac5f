import NotebookPages.Proofs.Document.Checking
import NotebookPages.Proofs.Markup.FencedLines
import NotebookPages.Proofs.Markup.Unchanged

/-! Which changes a check foretells. A line that a repair changes has a finding, unless nothing on it is a problem and
some piece of it is written otherwise all the same. -/

namespace NotebookPages

open Markup

/-- The line that opens the fence left open lies in or around a fence. -/
theorem Fence.openLine?_of_some {held : Option Fence} {opened : Option Nat} {number n : Nat} {lines : List Text}
    (found : openLine? held opened number lines = some n) : opened = some n ∨
      ∃ i line, lines[i]? = some line ∧ n = number + i ∧ isProse (after held (lines.take i)) line = false := by
  induction lines generalizing held opened number with
  | nil => exact Or.inl found
  | cons line lines ih =>
    rw [openLine?] at found
    -- the lines behind are held by the fence that this line leaves open
    have later : ∀ {opened' : Option Nat}, openLine? (next held line) opened' (number + 1) lines = some n → opened' = some n ∨
        ∃ i line', (line :: lines)[i]? = some line' ∧ n = number + i ∧ isProse (after held ((line :: lines).take i)) line' = false := by
      intro opened' behind
      rcases ih behind with here | ⟨i, line', here, same, fenced⟩
      · exact Or.inl here
      · refine Or.inr ⟨i + 1, line', here, by omega, ?_⟩
        rw [List.take_succ_cons, after_cons]
        exact fenced
    split at found
    next prose =>
      rw [← prose] at found
      exact (later found).elim (fun none => by cases none) Or.inr
    next fence inside =>
      rw [← inside] at found
      rcases later found with here | behind
      · split at here
        next => exact Or.inl here
        next outside =>
          obtain rfl : held = none := by simpa using outside
          obtain rfl : number = n := Option.some.inj here
          refine Or.inr ⟨0, line, rfl, rfl, ?_⟩
          simp [isProse, show open? line = some fence from inside, after]
      · exact Or.inr behind

namespace Markup

variable {rules : Rules} {t : Text} {l : Line} {number : Nat}

/-- The line with this number has a problem or opens the fence that is left open. -/
def Pass.Finds (p : Pass) (number : Nat) : Prop :=
  ∃ l, p.lines[number]? = some l ∧ (l.problems ≠ [] ∨ p.openFence = some (number + 1))

theorem pieces_of_openFence (here : (Pass.run rules t).lines[number]? = some l) (opens : (Pass.run rules t).openFence = some (number + 1)) :
    l.pieces = [] := by
  rcases Fence.openLine?_of_some opens with none | ⟨i, line, same, counted, fenced⟩
  · cases none
  · obtain rfl : number = i := by omega
    obtain ⟨source, same', settled⟩ := (passed_run rules t).settled here
    obtain rfl := Option.some.inj (same.symm.trans same')
    cases settled with
    | fenced => rfl
    | prose _ outside | replaced outside => exact absurd outside (by rw [fenced]; simp)

/-- Where a pass finds nothing on a line, it changes the line exactly if some piece of it changes unnoticed. -/
theorem unnoticed_line_iff (rules : Rules) (t : Text) (number : Nat) :
    ((Text.splitLines (sanitize rules t))[number]? ≠ (Text.splitLines t)[number]? ∧ ¬ (Pass.run rules t).Finds number) ↔
      ∃ l, (Pass.run rules t).lines[number]? = some l ∧ l.Unnoticed rules.dialect := by
  rw [splitLines_sanitize, List.getElem?_map]
  obtain ⟨here, beyond⟩ | ⟨l, source, here, same, settled⟩ := (passed_run rules t).line_cases number
  · simp [here, beyond]
  · rw [here, same, Option.map_some, Ne, Option.some.injEq]
    constructor
    · rintro ⟨changed, nothing⟩
      have silent : l.problems = [] := by
        by_contra problem
        exact nothing ⟨l, here, Or.inl problem⟩
      exact ⟨l, rfl, (settled.render_ne_iff silent).mp changed⟩
    · rintro ⟨l', found, unnoticed⟩
      obtain rfl := Option.some.inj found
      refine ⟨(settled.render_ne_iff unnoticed.1).mpr unnoticed, ?_⟩
      rintro ⟨l', found, problem | opens⟩
      · obtain rfl := Option.some.inj (here.symm.trans found)
        exact problem unnoticed.1
      · obtain ⟨p, member, -⟩ := unnoticed.2
        rw [pieces_of_openFence here opens] at member
        cases member

end Markup

namespace Document

variable {rules : Rules} {text : Text} {f : Finding}

/-- The number of lines in front of the body. -/
def bodyOffset (text : Text) : Nat := (Text.lines ((split text).1.getD [])).length

theorem append_split (text : Text) : (split text).1.getD [] ++ (split text).2 = text := by
  cases found : split text with
  | mk header body =>
    cases header with
    | some header => exact (append_of_split found).symm
    | none =>
      have none : (split text).1 = none := by rw [found]
      exact (Prod.mk.inj (found.symm.trans (split_of_none none))).2

/-- A header ends its last line where a body follows. -/
theorem getLast?_header (body : (split text).2 ≠ []) (some : (split text).1.getD [] ≠ []) :
    ((split text).1.getD []).getLast? = Option.some '\n' := by
  cases found : split text with
  | mk header rest =>
    rw [found] at body some
    cases header with
    | none => exact absurd rfl some
    | some header =>
      obtain ⟨mark, front, back, opened, lines, rfl, rfl, -⟩ := split_eq_some found
      have divided := Text.endedLines_divide lines fun none => body (by rw [none]; rfl)
      show (mark ++ front.flatten).getLast? = _
      by_cases empty : front.flatten = []
      · rw [empty, List.append_nil]
        rcases (opening?_eq_some_iff.mp opened).1 with rfl | rfl <;> rfl
      · rw [List.getLast?_append, divided.1 empty]
        rfl

theorem mem_diagnose_iff : f ∈ diagnose rules text ↔
    ∃ number l, (Pass.run rules (split text).2).lines[number]? = some l ∧ f.line = bodyOffset text + number + 1 ∧
      f.excerpt = Text.shorten Finding.excerptLimit (Text.trim l.source) ∧
      (f.problem ∈ l.problems ∨ f.problem = .unclosedFence ∧ (Pass.run rules (split text).2).openFence = some (number + 1)) := by
  show f ∈ findingsFrom (bodyOffset text) 1 (Pass.run rules (split text).2).openFence (Pass.run rules (split text).2).lines ↔ _
  have count (number : Nat) : number + 1 + bodyOffset text = bodyOffset text + number + 1 := by omega
  simp only [mem_findingsFrom_iff, Nat.add_comm 1, count]

theorem exists_finding_diagnose_iff (rules : Rules) (text : Text) (line : Nat) :
    (∃ f ∈ diagnose rules text, f.line = line + 1) ↔
      ∃ number, line = bodyOffset text + number ∧ (Pass.run rules (split text).2).Finds number := by
  constructor
  · rintro ⟨f, member, same⟩
    obtain ⟨number, l, here, counted, -, found⟩ := mem_diagnose_iff.mp member
    exact ⟨number, by omega, l, here, found.imp List.ne_nil_of_mem And.right⟩
  · rintro ⟨number, rfl, l, here, some | opens⟩
    · obtain ⟨p, problem⟩ := List.exists_mem_of_ne_nil _ some
      exact ⟨⟨_, p, _⟩, mem_diagnose_iff.mpr ⟨number, l, here, rfl, rfl, Or.inl problem⟩, rfl⟩
    · exact ⟨⟨_, .unclosedFence, _⟩, mem_diagnose_iff.mpr ⟨number, l, here, rfl, rfl, Or.inr ⟨rfl, opens⟩⟩, rfl⟩

/-- The header and the body of a document are lines of their own, and a repair keeps those of the header. -/
theorem splitLines_of_body (body : (split text).2 ≠ []) : ∃ front, front.length = bodyOffset text ∧
    Text.splitLines text = front ++ Text.splitLines (split text).2 ∧
      ∀ rules, Text.splitLines (fix rules text).1 = front ++ Text.splitLines (sanitize rules (split text).2) := by
  obtain ⟨front, count, lines⟩ := Text.splitLines_append_of_ended (getLast?_header body)
  refine ⟨front, by rw [count, bodyOffset, Text.lines, List.length_map], ?_, fun rules => ?_⟩
  · rw [← lines, append_split]
  · rw [fix_eq, lines]

/-- The lines that a repair changes are the lines of the body that a pass changes. -/
theorem fix_changes_iff (rules : Rules) (text : Text) (number : Nat) :
    (Text.splitLines (fix rules text).1)[number]? ≠ (Text.splitLines text)[number]? ↔
      ∃ i, number = bodyOffset text + i ∧
        (Text.splitLines (sanitize rules (split text).2))[i]? ≠ (Text.splitLines (split text).2)[i]? := by
  by_cases empty : (split text).2 = []
  · have whole := append_split text
    rw [empty] at whole
    rw [fix_eq, empty, sanitize_nil, whole]
    simp
  · obtain ⟨front, count, before, after⟩ := splitLines_of_body empty
    rw [before, after, ← count]
    constructor
    · intro changed
      have behind : front.length ≤ number := by
        by_contra ahead
        rw [List.getElem?_append_left (by omega), List.getElem?_append_left (by omega)] at changed
        exact changed rfl
      obtain ⟨i, rfl⟩ := Nat.exists_eq_add_of_le behind
      rw [List.getElem?_append_right behind, List.getElem?_append_right behind, Nat.add_sub_cancel_left] at changed
      exact ⟨i, rfl, changed⟩
    · rintro ⟨i, rfl, changed⟩
      have behind := Nat.le_add_right front.length i
      rwa [List.getElem?_append_right behind, List.getElem?_append_right behind, Nat.add_sub_cancel_left]

/-- A repair changes a line on which a check finds nothing exactly if some piece of the line changes unnoticed. -/
theorem unnoticed_change_iff (rules : Rules) (text : Text) (number : Nat) :
    ((Text.splitLines (fix rules text).1)[number]? ≠ (Text.splitLines text)[number]? ∧
        ¬ ∃ f ∈ diagnose rules text, f.line = number + 1) ↔
      ∃ i l, number = bodyOffset text + i ∧ (Pass.run rules (split text).2).lines[i]? = some l ∧ l.Unnoticed rules.dialect := by
  rw [fix_changes_iff, exists_finding_diagnose_iff]
  constructor
  · rintro ⟨⟨i, rfl, changed⟩, nothing⟩
    obtain ⟨l, unnoticed⟩ := (unnoticed_line_iff rules _ i).mp ⟨changed, fun found => nothing ⟨i, rfl, found⟩⟩
    exact ⟨i, l, rfl, unnoticed⟩
  · rintro ⟨i, l, rfl, unnoticed⟩
    obtain ⟨changed, nothing⟩ := (unnoticed_line_iff rules _ i).mpr ⟨l, unnoticed⟩
    refine ⟨⟨i, rfl, changed⟩, ?_⟩
    rintro ⟨j, same, found⟩
    obtain rfl : i = j := by omega
    exact nothing found

/-- A tag is spelled otherwise, a declaration is left out and an autolink becomes a link, and nothing is found. -/
theorem changes_unnoticed :
    ((Text.splitLines (fix {} "<br>").1)[0]? ≠ (Text.splitLines "<br>")[0]? ∧ diagnose {} "<br>" = []) ∧
      ((Text.splitLines (fix {} "<!DOCTYPE html>").1)[0]? ≠ (Text.splitLines "<!DOCTYPE html>")[0]? ∧
        diagnose {} "<!DOCTYPE html>" = []) ∧
      (Text.splitLines (fix {} "<https://e.com>").1)[0]? ≠ (Text.splitLines "<https://e.com>")[0]? ∧
        diagnose {} "<https://e.com>" = [] := by
  decide +kernel

end Document
end NotebookPages
