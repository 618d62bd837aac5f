import NotebookPages.Proofs.Markup.FencedBlocks
import NotebookPages.Proofs.Markup.Measures
import NotebookPages.Proofs.Text.Lines

/-! A pass over what a pass has written. Every line keeps its role, because what is written for prose opens no fence, so
the second pass is determined line by line. -/

namespace NotebookPages.Markup

variable {rules : Rules} {held : Option Fence} {source : Text} {l : Line} {sources : List Text} {ls : List Line}

/-- What a pass makes of a line that `held` holds, once the tags are paired. -/
inductive Line.Settled (rules : Rules) (held : Option Fence) (source : Text) : Line → Prop where
  | fenced (inside : Fence.isProse held source = false) : Settled rules held source (.fenced source)
  | prose (flags : List Bool) (outside : Fence.isProse held source = true)
      (fits : Piece.totalWidth rules.dialect (scanLine rules.dialect source) ≤ rules.maxLine) :
      Settled rules held source (.prose source (Piece.settle flags (scanLine rules.dialect source)))
  | replaced (outside : Fence.isProse held source = true)
      (long : rules.maxLine < Piece.totalWidth rules.dialect (scanLine rules.dialect source)) :
      Settled rules held source (.replaced source)

theorem Line.Settled.source_eq (settled : l.Settled rules held source) : l.source = source := by
  cases settled <;> rfl

/-- What a pass makes of lines, the first of which `held` holds. -/
inductive Passed (rules : Rules) : Option Fence → List Text → List Line → Prop where
  | nil {held : Option Fence} : Passed rules held [] []
  | cons {held : Option Fence} {source : Text} {l : Line} {sources : List Text} {ls : List Line}
      (first : l.Settled rules held source) (rest : Passed rules (Fence.next held source) sources ls) :
      Passed rules held (source :: sources) (l :: ls)

theorem Line.settled_read (rules : Rules) (held : Option Fence) (source : Text) (flags : List Bool) :
    ((Line.read rules held source).settle flags).Settled rules held source := by
  unfold Line.read
  split
  next outside =>
    unfold Line.ofProse
    simp only
    split
    next long => exact .replaced outside long
    next fits => exact .prose flags outside (Nat.not_lt.mp fits)
  next inside => exact .fenced (by simpa using inside)

theorem passed_settleLines (rules : Rules) (held : Option Fence) (sources : List Text) (flags : List Bool) :
    Passed rules held sources (settleLines flags (readLines rules held sources)) := by
  induction sources generalizing held flags with
  | nil => exact .nil
  | cons source sources ih => exact .cons (Line.settled_read rules held source flags) (ih _ _)

theorem passed_run (rules : Rules) (t : Text) : Passed rules none (Text.splitLines t) (Pass.run rules t).lines :=
  passed_settleLines rules none _ _

theorem isProse_iff : Fence.isProse held source = true ↔ held = none ∧ Fence.open? source = none := by
  simp [Fence.isProse]

theorem Line.Settled.next (settled : l.Settled rules held source) :
    Fence.next held (l.render rules.dialect) = Fence.next held source := by
  cases settled with
  | fenced => rfl
  | prose _ outside =>
    obtain ⟨rfl, opens⟩ := isProse_iff.mp outside
    exact (open?_guardFence _).trans opens.symm
  | replaced outside =>
    obtain ⟨rfl, opens⟩ := isProse_iff.mp outside
    exact (comment_open? _ _).trans opens.symm

theorem Line.Settled.isProse (settled : l.Settled rules held source) :
    Fence.isProse held (l.render rules.dialect) = Fence.isProse held source := by
  cases settled with
  | fenced => rfl
  | prose _ outside =>
    rw [outside]
    exact isProse_iff.mpr ⟨(isProse_iff.mp outside).1, open?_guardFence _⟩
  | replaced outside =>
    rw [outside]
    exact isProse_iff.mpr ⟨(isProse_iff.mp outside).1, comment_open? _ _⟩

/-- What a second pass reads where the line was written. -/
def Line.again (rules : Rules) : Line → Line
  | .fenced source => .fenced source
  | l => Line.ofProse rules (l.render rules.dialect)

theorem Line.Settled.read (settled : l.Settled rules held source) :
    Line.read rules held (l.render rules.dialect) = l.again rules := by
  unfold Line.read
  rw [settled.isProse]
  cases settled with
  | fenced inside =>
    rw [inside]
    rfl
  | prose _ outside | replaced outside =>
    rw [outside]
    rfl

theorem Passed.readLines (passed : Passed rules held sources ls) :
    Markup.readLines rules held (ls.map (Line.render rules.dialect)) = ls.map (Line.again rules) := by
  induction passed with
  | nil => rfl
  | cons first _ ih => rw [List.map_cons, List.map_cons, Markup.readLines, first.read, first.next, ih]

theorem Passed.inStep (passed : Passed rules held sources ls) : Fence.InStep held (ls.map (Line.render rules.dialect)) sources := by
  induction passed with
  | nil => exact .nil
  | cons first _ ih => exact .cons first.next ih

theorem Passed.length_eq (passed : Passed rules held sources ls) : ls.length = sources.length := by
  induction passed with
  | nil => rfl
  | cons _ _ ih => rw [List.length_cons, List.length_cons, ih]

theorem Passed.take (passed : Passed rules held sources ls) (number : Nat) :
    Passed rules held (sources.take number) (ls.take number) := by
  induction passed generalizing number with
  | nil =>
    rw [List.take_nil, List.take_nil]
    exact .nil
  | cons first _ ih =>
    cases number with
    | zero => exact .nil
    | succ number => exact .cons first (ih number)

/-- Every line is settled in the fence that the lines before it leave open. -/
theorem Passed.settled (passed : Passed rules held sources ls) {number : Nat} (here : ls[number]? = some l) :
    ∃ source, sources[number]? = some source ∧ l.Settled rules (Fence.after held (sources.take number)) source := by
  induction passed generalizing number with
  | nil => cases here
  | @cons _ source _ _ _ first _ ih =>
    cases number with
    | zero =>
      obtain rfl := Option.some.inj here
      exact ⟨source, rfl, first⟩
    | succ number => exact ih here

/-- By number, a pass and what it read have either no line or one that is settled. -/
theorem Passed.line_cases (passed : Passed rules held sources ls) (number : Nat) : ls[number]? = none ∧ sources[number]? = none ∨
    ∃ l source, ls[number]? = some l ∧ sources[number]? = some source ∧ l.Settled rules (Fence.after held (sources.take number)) source := by
  cases here : ls[number]? with
  | none =>
    rw [List.getElem?_eq_none_iff, passed.length_eq] at here
    exact Or.inl ⟨rfl, List.getElem?_eq_none_iff.mpr here⟩
  | some l =>
    obtain ⟨source, same, settled⟩ := passed.settled here
    exact Or.inr ⟨l, source, rfl, same, settled⟩

theorem Passed.exists_settled (passed : Passed rules held sources ls) (member : l ∈ ls) :
    ∃ held source, source ∈ sources ∧ l.Settled rules held source := by
  obtain ⟨number, here⟩ := List.getElem?_of_mem member
  obtain ⟨source, same, settled⟩ := passed.settled here
  exact ⟨_, source, List.mem_of_getElem? same, settled⟩

theorem isLine_guardFence {w : Text} (line : Text.IsLine w) : Text.IsLine (Line.guardFence w) := by
  rcases guardFence_cases w with same | ⟨blanks, marks, -, shape, guarded⟩
  · rwa [same]
  · rw [Text.IsLine, shape] at line
    rw [Text.IsLine, guarded]
    simpa using line

theorem isLine_comment (d : Dialect) : Text.IsLine (d.comment longLineNote) := by
  unfold Text.IsLine
  cases d <;> decide

theorem Line.Settled.isLine (settled : l.Settled rules held source) (line : Text.IsLine source) :
    Text.IsLine (l.render rules.dialect) := by
  cases settled with
  | fenced => exact line
  | prose flags =>
    apply isLine_guardFence
    intro inside
    have some := List.count_pos_iff.mpr inside
    have bound := Nat.lt_of_lt_of_le some (count_newline_weld (reading_scan rules.dialect true none source))
    exact line (List.count_pos_iff.mp bound)
  | replaced => exact isLine_comment _

theorem Passed.isLine (passed : Passed rules held sources ls) (lines : ∀ source ∈ sources, Text.IsLine source) :
    ∀ written ∈ ls.map (Line.render rules.dialect), Text.IsLine written := by
  intro written member
  obtain ⟨l, inside, rfl⟩ := List.mem_map.mp member
  obtain ⟨held, source, here, settled⟩ := passed.exists_settled inside
  exact settled.isLine (lines source here)

theorem Passed.ne_nil (passed : Passed rules held sources ls) (some : sources ≠ []) : ls ≠ [] := by
  cases passed with
  | nil => contradiction
  | cons => simp

theorem splitLines_sanitize (rules : Rules) (t : Text) :
    Text.splitLines (sanitize rules t) = (Pass.run rules t).lines.map (Line.render rules.dialect) := by
  have passed := passed_run rules t
  have some : (Pass.run rules t).lines.map (Line.render rules.dialect) ≠ [] := by
    simpa using passed.ne_nil (Text.splitLines_ne_nil t)
  exact Text.splitLines_join some (passed.isLine fun source member => Text.isLine_of_mem member)

/-- The second pass reads every written line, and pairs the tags it finds there. -/
theorem run_sanitize (rules : Rules) (t : Text) :
    Pass.run rules (sanitize rules t) =
      ⟨settleLines (keepFlags (((Pass.run rules t).lines.map (Line.again rules)).flatMap Line.tags))
        ((Pass.run rules t).lines.map (Line.again rules)), (Pass.run rules t).openFence⟩ := by
  have passed := passed_run rules t
  have again := passed.readLines
  have fence := passed.inStep.openLine? none 1
  rw [Pass.run, splitLines_sanitize]
  simp only [again, fence]
  rfl

end NotebookPages.Markup
