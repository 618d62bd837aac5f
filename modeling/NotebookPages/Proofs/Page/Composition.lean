import NotebookPages.Proofs.Page.Isolation

/-! The page of two runs of cells. It is the page of the first run, a blank line and the page of the second, and the counts are added;
the one exception are cells of which nothing is left but an empty block, which the page still sets apart by blank lines. -/

namespace NotebookPages

theorem Report.zero_add (a : Report) : ({} : Report) + a = a := by
  show Report.add {} a = a
  simp only [Report.add, Nat.zero_add]

theorem Report.add_assoc (a b c : Report) : a + b + c = a + (b + c) := by
  show Report.add (Report.add a b) c = Report.add a (Report.add b c)
  simp only [Report.add, Nat.add_assoc]

theorem Stats.zero_add (a : Stats) : ({} : Stats) + a = a := by
  show Stats.add {} a = a
  simp only [Stats.add, Nat.zero_add, Report.zero_add]

theorem Stats.add_assoc (a b c : Stats) : a + b + c = a + (b + c) := by
  show Stats.add (Stats.add a b) c = Stats.add a (Stats.add b c)
  simp only [Stats.add, Nat.add_assoc, Report.add_assoc]

namespace Page

open Markup

theorem Blocks.empty_append (a : Blocks) : Blocks.empty ++ a = a := by
  show Blocks.mk ([] ++ a.blocks) ({} + a.stats) = a
  rw [Stats.zero_add]
  rfl

theorem Blocks.append_assoc (a b c : Blocks) : a ++ b ++ c = a ++ (b ++ c) := by
  show Blocks.mk (a.blocks ++ b.blocks ++ c.blocks) (a.stats + b.stats + c.stats) = _
  rw [List.append_assoc, Stats.add_assoc]
  rfl

theorem Blocks.concat_append (xs ys : List Blocks) : Blocks.concat (xs ++ ys) = Blocks.concat xs ++ Blocks.concat ys := by
  induction xs with
  | nil => exact (Blocks.empty_append _).symm
  | cons x xs ih =>
    show x ++ Blocks.concat (xs ++ ys) = x ++ Blocks.concat xs ++ Blocks.concat ys
    rw [ih, Blocks.append_assoc]

variable {o : PageOptions} {n : Notebook} {a b : List Text} {t : Text} {c : Cell} {cells : List Cell}

/-- Two bodies with a blank line in between, where both show something. -/
def joined (a b : Text) : Text := if b = [] then a else if a = [] then b else a ++ '\n' :: b

theorem joined_nil (a : Text) : joined a [] = a := if_pos rfl

theorem nil_joined (b : Text) : joined [] b = b := by
  unfold joined
  split
  next empty => exact empty.symm
  next => rfl

theorem layOut_eq_nil_iff : layOut a = [] ↔ a = [] ∨ a = [[]] := by
  constructor
  · intro empty
    by_cases none : a = []
    · exact Or.inl none
    · refine Or.inr (eq_of_joinWith_eq_nil none ?_)
      unfold layOut at empty
      simp only at empty
      split at empty
      next blank => exact List.isEmpty_iff.mp blank
      next => simp [Text.line] at empty
  · rintro (rfl | rfl) <;> rfl

theorem layOut_of_some (some : a ≠ []) (other : a ≠ [[]]) : layOut a = Text.line (Text.joinWith "\n\n" a) := by
  unfold layOut
  simp only
  split
  next blank => exact absurd (eq_of_joinWith_eq_nil some (List.isEmpty_iff.mp blank)) other
  next => rfl

theorem length_layOut_le (a : List Text) : (layOut a).length ≤ (Text.joinWith "\n\n" a).length + 1 := by
  unfold layOut
  simp only
  split
  next => exact Nat.zero_le _
  next => exact Nat.le_of_eq List.length_append

theorem layOut_append (front : a ≠ []) (back : b ≠ []) :
    layOut (a ++ b) = Text.joinWith "\n\n" a ++ ("\n\n" ++ Text.line (Text.joinWith "\n\n" b)) := by
  have several : a ++ b ≠ [[]] := by
    intro same
    have length := congrArg List.length same
    have first := List.length_pos_iff.mpr front
    have last := List.length_pos_iff.mpr back
    rw [List.length_append, List.length_singleton] at length
    omega
  rw [layOut_of_some (List.append_ne_nil_of_left_ne_nil front b) several, Text.joinWith_append _ front back, Text.line, Text.line,
    List.append_assoc, List.append_assoc]

/-- The blocks of two runs are laid out with one blank line in between, unless one of them is a single empty block. -/
theorem layOut_append_iff (a b : List Text) :
    layOut (a ++ b) = joined (layOut a) (layOut b) ↔ ¬ (a = [[]] ∧ b ≠ [] ∨ b = [[]] ∧ a ≠ []) := by
  by_cases front : a = []
  · subst front
    exact iff_of_true (nil_joined _).symm (by simp)
  by_cases back : b = []
  · subst back
    exact iff_of_true (by rw [List.append_nil]; exact (joined_nil _).symm) (by simp)
  have whole := layOut_append front back
  -- the blank line alone makes the page longer than either part
  have longer : (layOut a).length < (layOut (a ++ b)).length ∧ (layOut b).length < (layOut (a ++ b)).length := by
    have first := length_layOut_le a
    have last := length_layOut_le b
    rw [whole]
    simp only [Text.line, List.length_append, List.length_singleton, show ("\n\n" : Text).length = 2 from rfl]
    omega
  by_cases first : a = [[]]
  · refine iff_of_false ?_ (not_not_intro (Or.inl ⟨first, back⟩))
    intro same
    rw [same, layOut_eq_nil_iff.mpr (Or.inr first), nil_joined] at longer
    exact Nat.lt_irrefl _ longer.2
  by_cases last : b = [[]]
  · refine iff_of_false ?_ (not_not_intro (Or.inr ⟨last, front⟩))
    intro same
    rw [same, layOut_eq_nil_iff.mpr (Or.inr last), joined_nil] at longer
    exact Nat.lt_irrefl _ longer.1
  · refine iff_of_true ?_ (by simp [first, last])
    have shown : layOut a ≠ [] ∧ layOut b ≠ [] := by
      rw [Ne, Ne, layOut_eq_nil_iff, layOut_eq_nil_iff]
      exact ⟨by simp [front, first], by simp [back, last]⟩
    rw [whole, joined, if_neg shown.2, if_neg shown.1, layOut_of_some front first, layOut_of_some back last, Text.line, Text.line,
      List.append_assoc]
    rfl

theorem trimProse_eq_nil_iff : trimProse t = [] ↔ Text.allBlank t = true := by
  have ends : ∀ c : Char, (c == '\n' || c == '\r') = true → Text.isBlank c = true := by
    intro c mark
    rw [Bool.or_eq_true, beq_iff_eq, beq_iff_eq] at mark
    rcases mark with rfl | rfl <;> decide
  have bare : trimProse t = [] ↔ ∀ c ∈ t.dropWhile (fun c => c == '\n' || c == '\r'), Text.isBlank c = true := by
    simp [trimProse, Text.trimEnd, Text.dropEndWhile, List.dropWhile_eq_nil_iff]
  rw [bare, Text.allBlank, List.all_eq_true]
  constructor
  · intro blank c inside
    rw [← List.takeWhile_append_dropWhile (p := fun c => c == '\n' || c == '\r') (l := t)] at inside
    rcases List.mem_append.mp inside with inside | inside
    · have mark := List.mem_takeWhile_imp inside
      exact ends c mark
    · exact blank c inside
  · intro blank c inside
    exact blank c ((List.dropWhile_sublist _).mem inside)

theorem Verbatim.ne_nil {d : Dialect} {images known : List Text} (verbatim : Verbatim d images known t) : t ≠ [] := by
  cases verbatim with
  | block listed content =>
    have ticks : Fence.around content ≠ [] := by simp [Fence.around]
    unfold Fence.block
    simp only
    split
    next => exact List.append_ne_nil_of_right_ne_nil _ ticks
    next => exact List.append_ne_nil_of_right_ne_nil _ ticks
  | note shown =>
    unfold imagePlaceholder
    cases d with
    | mdx => exact List.append_ne_nil_of_left_ne_nil (List.append_ne_nil_of_left_ne_nil (by decide) _) _
    | markdown => exact List.append_ne_nil_of_left_ne_nil (by decide) _

/-- The cells show one block, and it is empty: one Markdown cell is not blank, but what the pass leaves of it is, and no other cell
shows anything. -/
def Hollow (o : PageOptions) (n : Notebook) (cells : List Cell) : Prop :=
  ∃ front id source back, cells = front ++ .markdown id source :: back ∧ Text.allBlank source = false ∧
    Text.allBlank (sanitize o.rules source) = true ∧ ∀ c ∈ front ++ back, blocksOf o n c = []

theorem hollow_cell (shown : blocksOf o n c = [[]]) : ∃ id source, c = .markdown id source ∧ Text.allBlank source = false ∧
    Text.allBlank (sanitize o.rules source) = true := by
  by_cases prose : ∃ id source, c = .markdown id source
  · obtain ⟨id, source, rfl⟩ := prose
    rw [blocksOf_markdown] at shown
    split at shown
    next => cases shown
    next some => exact ⟨id, source, rfl, by simpa using some, trimProse_eq_nil_iff.mp (List.singleton_inj.mp shown)⟩
  · have verbatim := verbatim_of_mem (b := []) (by rw [shown]; exact List.mem_cons_self) fun id source same => prose ⟨id, source, same⟩
    exact absurd rfl verbatim.ne_nil

theorem hollow_iff : Hollow o n cells ↔ cells.flatMap (blocksOf o n) = [[]] := by
  constructor
  · rintro ⟨front, id, source, back, rfl, some, blank, others⟩
    have before := List.flatMap_eq_nil_iff.mpr fun c inside => others c (List.mem_append_left back inside)
    have behind := List.flatMap_eq_nil_iff.mpr fun c inside => others c (List.mem_append_right front inside)
    rw [List.flatMap_append, List.flatMap_cons, before, behind, blocksOf_markdown, if_neg (by simp [some]),
      trimProse_eq_nil_iff.mpr blank]
    rfl
  · intro alone
    induction cells with
    | nil => cases alone
    | cons c cells ih =>
      rw [List.flatMap_cons, List.append_eq_singleton_iff] at alone
      rcases alone with ⟨none, later⟩ | ⟨here, none⟩
      · obtain ⟨front, id, source, back, rfl, some, blank, others⟩ := ih later
        exact ⟨c :: front, id, source, back, rfl, some, blank, List.forall_mem_cons.mpr ⟨none, others⟩⟩
      · obtain ⟨id, source, rfl, some, blank⟩ := hollow_cell here
        exact ⟨[], id, source, cells, rfl, some, blank, List.flatMap_eq_nil_iff.mp none⟩

/-- The body of two runs of cells is the bodies of both with one blank line in between, or the one that is not empty, exactly if no run
that shows an empty block and nothing else stands beside cells that show something. The counts are added in any case. -/
theorem renderBody_append_iff (o : PageOptions) (n : Notebook) (xs ys : List Cell) :
    (renderBody o { n with cells := xs ++ ys }).2 = (renderBody o { n with cells := xs }).2 + (renderBody o { n with cells := ys }).2 ∧
    ((renderBody o { n with cells := xs ++ ys }).1 =
        joined (renderBody o { n with cells := xs }).1 (renderBody o { n with cells := ys }).1 ↔
      ¬ (Hollow o n xs ∧ (∃ c ∈ ys, blocksOf o n c ≠ []) ∨ Hollow o n ys ∧ ∃ c ∈ xs, blocksOf o n c ≠ [])) := by
  have shows (cells : List Cell) : (∃ c ∈ cells, blocksOf o n c ≠ []) ↔ cells.flatMap (blocksOf o n) ≠ [] := by
    simp [List.flatMap_eq_nil_iff]
  constructor
  · simp only [renderBody, List.map_append, Blocks.concat_append]
    rfl
  · rw [renderBody_fst, renderBody_fst, renderBody_fst, hollow_iff, hollow_iff, shows, shows, ← layOut_append_iff, ← List.flatMap_append]
    rfl

/-- A cell whose only markup is a tag without a partner leaves an empty block, and the blank lines around it stay. -/
theorem renderBody_not_joined :
    (renderBody {} ⟨4, 5, {}, [.markdown none "<i>"] ++ [.markdown none "x"]⟩).1 = ("\n\nx\n" : Text) ∧
      joined (renderBody {} ⟨4, 5, {}, [.markdown none "<i>"]⟩).1 (renderBody {} ⟨4, 5, {}, [.markdown none "x"]⟩).1 =
        ("x\n" : Text) := by
  decide +kernel

end Page
end NotebookPages
