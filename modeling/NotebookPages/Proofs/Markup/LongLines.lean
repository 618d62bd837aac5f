import NotebookPages.Proofs.Markup.FencedLines
import NotebookPages.Proofs.Markup.Stability

/-! A line that is too long leaves no trace. The tags and problems found on it are given up with it, so a text that holds the
comment in its place from the start has the same tags, and what a pass writes and finds elsewhere is the same. -/

namespace NotebookPages.Markup

def Line.isReplaced : Line → Bool
  | .replaced _ => true
  | _ => false

namespace Pass

def replaces (p : Pass) (number : Nat) : Bool := p.lines[number]?.any Line.isReplaced

/-- What is found on the line after the first `number` lines. -/
def problemsAt (p : Pass) (number : Nat) : List Problem := (p.lines[number]?.map Line.problems).getD []

end Pass

/-- The text with the comment in place of every line that a pass replaces. -/
def abridge (rules : Rules) (t : Text) : Text :=
  Text.joinWith ['\n'] ((Text.splitLines t).mapIdx fun number line =>
    if (Pass.run rules t).replaces number then rules.dialect.comment longLineNote else line)

/-- The source of a line, or the comment that a pass writes instead. -/
def Line.noted (d : Dialect) (l : Line) : Text := if l.isReplaced then d.comment longLineNote else l.source

/-- What is read for a line where its source is noted. -/
def Line.recast (rules : Rules) (l : Line) : Line :=
  if l.isReplaced then Line.ofProse rules (rules.dialect.comment longLineNote) else l

variable {rules : Rules} {held : Option Fence} {source t : Text} {l : Line} {sources : List Text} {ls : List Line}

theorem replaces_iff (rules : Rules) (t : Text) (number : Nat) :
    (Pass.run rules t).replaces number = true ↔ ∃ line, (Text.splitLines t)[number]? = some line ∧
      Fence.isProse (Fence.holding t number) line = true ∧ rules.maxLine < Piece.totalWidth rules.dialect (scanLine rules.dialect line) := by
  obtain ⟨here, beyond⟩ | ⟨l, source, here, same, settled⟩ := (passed_run rules t).line_cases number
  · simp [Pass.replaces, here, beyond]
  · rw [Pass.replaces, here, same, Fence.holding]
    cases settled with
    | fenced inside => simp [Line.isReplaced, inside]
    | prose flags outside fits => simp [Line.isReplaced, outside, fits]
    | replaced outside long => simp [Line.isReplaced, outside, long]

theorem source_read (rules : Rules) (held : Option Fence) (source : Text) : (Line.read rules held source).source = source := by
  unfold Line.read Line.ofProse
  simp only
  split
  · split <;> rfl
  · rfl

theorem isProse_of_isReplaced (replaced : (Line.read rules held source).isReplaced = true) : Fence.isProse held source = true := by
  unfold Line.read at replaced
  split at replaced
  next outside => exact outside
  next => cases replaced

/-- The comment opens no fence, nor does the line that it stands for. -/
theorem next_noted (rules : Rules) (held : Option Fence) (source : Text) :
    Fence.next held ((Line.read rules held source).noted rules.dialect) = Fence.next held source := by
  rw [Line.noted]
  split
  next replaced =>
    obtain ⟨rfl, opens⟩ := isProse_iff.mp (isProse_of_isReplaced replaced)
    exact (comment_open? _ _).trans opens.symm
  next => rw [source_read]

theorem read_noted (rules : Rules) (held : Option Fence) (source : Text) :
    Line.read rules held ((Line.read rules held source).noted rules.dialect) = (Line.read rules held source).recast rules := by
  rw [Line.noted, Line.recast]
  split
  next replaced =>
    obtain ⟨rfl, -⟩ := isProse_iff.mp (isProse_of_isReplaced replaced)
    rw [Line.read, if_pos (isProse_iff.mpr ⟨rfl, comment_open? _ _⟩)]
  next => rw [source_read]

theorem readLines_noted (rules : Rules) (held : Option Fence) (sources : List Text) :
    readLines rules held ((readLines rules held sources).map (Line.noted rules.dialect)) =
      (readLines rules held sources).map (Line.recast rules) := by
  induction sources generalizing held with
  | nil => rfl
  | cons source sources ih => rw [readLines, List.map_cons, List.map_cons, readLines, read_noted, next_noted, ih]

theorem inStep_noted (rules : Rules) (held : Option Fence) (sources : List Text) :
    Fence.InStep held ((readLines rules held sources).map (Line.noted rules.dialect)) sources := by
  induction sources generalizing held with
  | nil => exact .nil
  | cons source sources ih => exact .cons (next_noted rules held source) (ih _)

theorem tags_recast (rules : Rules) (l : Line) : (l.recast rules).tags = l.tags := by
  cases l with
  | fenced | prose => rfl
  | replaced s => exact tags_ofProse_comment rules

theorem settle_recast (rules : Rules) (flags : List Bool) (l : Line) : (l.recast rules).settle flags = (l.settle flags).recast rules := by
  cases l with
  | fenced | prose => rfl
  | replaced s =>
    show (Line.ofProse rules _).settle flags = Line.ofProse rules _
    rw [ofProse_comment]
    split <;> rfl

theorem render_recast (rules : Rules) (l : Line) : (l.recast rules).render rules.dialect = l.render rules.dialect := by
  cases l with
  | fenced | prose => rfl
  | replaced s => exact render_ofProse_comment rules

theorem settleLines_recast (rules : Rules) (flags : List Bool) (ls : List Line) :
    settleLines flags (ls.map (Line.recast rules)) = (settleLines flags ls).map (Line.recast rules) := by
  induction ls generalizing flags with
  | nil => rfl
  | cons l ls ih => rw [List.map_cons, settleLines, settleLines, List.map_cons, settle_recast, tags_recast, ih]

theorem noted_settleLines (d : Dialect) (flags : List Bool) (ls : List Line) :
    (settleLines flags ls).map (Line.noted d) = ls.map (Line.noted d) := by
  induction ls generalizing flags with
  | nil => rfl
  | cons l ls ih =>
    rw [settleLines, List.map_cons, List.map_cons, ih]
    cases l <;> rfl

/-- Replacing by number and replacing line by line come to the same. -/
theorem Passed.noted (passed : Passed rules held sources ls) (d : Dialect) :
    (sources.mapIdx fun number line => if ls[number]?.any Line.isReplaced then d.comment longLineNote else line) =
      ls.map (Line.noted d) := by
  induction passed with
  | nil => rfl
  | cons first _ ih =>
    rw [List.mapIdx_cons, List.map_cons]
    congr 1
    cases first <;> rfl

theorem abridge_eq (rules : Rules) (t : Text) :
    abridge rules t = Text.joinWith ['\n'] ((Pass.run rules t).lines.map (Line.noted rules.dialect)) :=
  congrArg (Text.joinWith ['\n']) ((passed_run rules t).noted rules.dialect)

theorem Passed.isLine_noted (passed : Passed rules held sources ls) (lines : ∀ source ∈ sources, Text.IsLine source) :
    ∀ written ∈ ls.map (Line.noted rules.dialect), Text.IsLine written := by
  intro written member
  obtain ⟨l, inside, rfl⟩ := List.mem_map.mp member
  obtain ⟨held, source, here, settled⟩ := passed.exists_settled inside
  cases settled with
  | fenced | prose => exact lines source here
  | replaced => exact isLine_comment _

theorem splitLines_abridge (rules : Rules) (t : Text) :
    Text.splitLines (abridge rules t) = (readLines rules none (Text.splitLines t)).map (Line.noted rules.dialect) := by
  have passed := passed_run rules t
  have some : (Pass.run rules t).lines.map (Line.noted rules.dialect) ≠ [] := by
    simpa using passed.ne_nil (Text.splitLines_ne_nil t)
  have lines := passed.isLine_noted fun source member => Text.isLine_of_mem member
  rw [abridge_eq, Text.splitLines_join some lines]
  exact noted_settleLines _ _ _

/-- A pass over the abridged text pairs the same tags, and reads every line that is not replaced as before. -/
theorem run_abridge (rules : Rules) (t : Text) :
    Pass.run rules (abridge rules t) = ⟨(Pass.run rules t).lines.map (Line.recast rules), (Pass.run rules t).openFence⟩ := by
  -- a replaced line gives no tags, and neither does the comment: the tags are paired over the same list
  have tags : ((readLines rules none (Text.splitLines t)).map (Line.recast rules)).flatMap Line.tags =
      (readLines rules none (Text.splitLines t)).flatMap Line.tags := by
    rw [List.flatMap_map]
    exact List.flatMap_congr fun l _ => tags_recast rules l
  have fence := (inStep_noted rules none (Text.splitLines t)).openLine? none 1
  rw [Pass.run, splitLines_abridge]
  simp only [readLines_noted, fence, tags, settleLines_recast]
  rfl

/-- A pass replaces the lines of prose that are too long. Abridging a text beforehand changes neither what a pass writes nor the
fence that it finds open. On a line that is replaced it finds the length of the line and nothing else, and on every other line
what it finds in the abridged text. -/
theorem sanitize_abridge (rules : Rules) (t : Text) :
    (∀ number, (Pass.run rules t).replaces number = true ↔ ∃ line, (Text.splitLines t)[number]? = some line ∧
        Fence.isProse (Fence.holding t number) line = true ∧
        rules.maxLine < Piece.totalWidth rules.dialect (scanLine rules.dialect line)) ∧
      sanitize rules (abridge rules t) = sanitize rules t ∧
      (Pass.run rules (abridge rules t)).openFence = (Pass.run rules t).openFence ∧
      ∀ number,
        if (Pass.run rules t).replaces number then (Pass.run rules t).problemsAt number = [.longLine]
        else (Pass.run rules (abridge rules t)).problemsAt number = (Pass.run rules t).problemsAt number := by
  have run := run_abridge rules t
  refine ⟨replaces_iff rules t, ?_, by rw [run], fun number => ?_⟩
  · rw [sanitize, sanitize, Pass.output, Pass.output, run, List.map_map]
    exact congrArg _ (List.map_congr_left fun l _ => render_recast rules l)
  · unfold Pass.replaces Pass.problemsAt
    rw [run, List.getElem?_map]
    cases (Pass.run rules t).lines[number]? with
    | none => rfl
    | some l => cases l <;> rfl

/-- The tag on the long line finds no partner, and the last line closes the first. -/
example : abridge ⟨.mdx, 12⟩ "<b>x\n</b> \x7bmuch\x7d longer\ny</b>" = Text.joinWith ['\n'] ["<b>x", Dialect.mdx.comment longLineNote, "y</b>"] ∧
    (Pass.run ⟨.mdx, 12⟩ "<b>x\n</b> \x7bmuch\x7d longer\ny</b>").problems = [.longLine] := by
  decide +kernel

end NotebookPages.Markup
