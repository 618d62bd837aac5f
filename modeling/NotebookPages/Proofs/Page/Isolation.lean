import NotebookPages.Proofs.Markup.FencedLines
import NotebookPages.Proofs.Page.Blocks

/-! Fences do not reach from one block of a page into the next, unless a Markdown cell leaves one open. -/

namespace NotebookPages

namespace Page

open Markup

variable {o : PageOptions} {n : Notebook} {d : Dialect} {b : Text} {held : Option Fence} {before after whole images known : List Text}
  {c : Cell}

def linesOf (blocks : List Text) : List Text := blocks.flatMap fun b => Text.splitLines b ++ [[]]

/-- The number of lines in front of the block that follows the given ones. -/
def offset (before : List Text) : Nat := (linesOf before).length

theorem splitLines_joinWith (some : whole ≠ []) : Text.splitLines (Text.line (Text.joinWith "\n\n" whole)) = linesOf whole := by
  unfold Text.line
  induction whole with
  | nil => exact absurd rfl some
  | cons b rest ih =>
    by_cases last : rest = []
    · subst last
      rw [Text.joinWith_singleton, Text.splitLines_append]
      exact (List.append_nil _).symm
    · have shape : Text.joinWith "\n\n" (b :: rest) ++ ['\n'] = b ++ '\n' :: '\n' :: (Text.joinWith "\n\n" rest ++ ['\n']) := by
        rw [Text.joinWith_cons _ b last, List.append_assoc, List.append_assoc]
        rfl
      rw [shape, Text.splitLines_append, Text.splitLines_newline, ih last]
      simp [linesOf]

theorem eq_of_joinWith_eq_nil (some : whole ≠ []) (empty : Text.joinWith "\n\n" whole = []) : whole = [[]] := by
  cases whole with
  | nil => exact absurd rfl some
  | cons b rest =>
    by_cases last : rest = []
    · subst last
      rw [Text.joinWith_singleton] at empty
      rw [empty]
    · rw [Text.joinWith_cons _ b last] at empty
      have none := (List.append_eq_nil_iff.mp (List.append_eq_nil_iff.mp empty).2).1
      cases none

theorem splitLines_layOut (some : whole ≠ []) :
    Text.splitLines (layOut whole) = linesOf whole ∨ whole = [[]] ∧ Text.splitLines (layOut whole) = [[]] := by
  unfold layOut
  simp only
  split
  next empty => exact Or.inr ⟨eq_of_joinWith_eq_nil some (List.isEmpty_iff.mp empty), rfl⟩
  next => exact Or.inl (splitLines_joinWith some)

theorem linesOf_append (a b : List Text) : linesOf (a ++ b) = linesOf a ++ linesOf b := List.flatMap_append

theorem splitLines_layOut_split (before : List Text) (b : Text) (after : List Text) :
    ∃ rest, Text.splitLines (layOut (before ++ b :: after)) = linesOf before ++ (Text.splitLines b ++ rest) := by
  have some : before ++ b :: after ≠ [] := List.append_ne_nil_of_right_ne_nil before (List.cons_ne_nil b after)
  rcases splitLines_layOut some with lines | ⟨shape, lines⟩
  · refine ⟨[] :: linesOf after, ?_⟩
    rw [lines, linesOf_append]
    simp [linesOf]
  · obtain ⟨rfl, rfl, rfl⟩ : before = [] ∧ b = [] ∧ after = [] := by
      cases before with
      | nil => simpa using shape
      | cons a before => simp at shape
    exact ⟨[], lines⟩

/-- Every block of a page starts outside of fences. -/
def Apart (page : Text) (whole : List Text) : Prop :=
  ∀ before b after, whole = before ++ b :: after → Fence.holding page (offset before) = none

/-- Every block of the page of a notebook starts outside of fences. -/
def Isolated (o : PageOptions) (n : Notebook) : Prop := Apart (renderBody o n).1 (blocks o n)

/-- The lines of a block stand on the page behind the blocks before it, and in no other fence than by themselves. -/
structure Placed (page : Text) (before : List Text) (b : Text) : Prop where
  line : ∀ i < (Text.splitLines b).length, (Text.splitLines page)[offset before + i]? = (Text.splitLines b)[i]?
  fence : ∀ i < (Text.splitLines b).length, Fence.holding page (offset before + i) = Fence.holding b i

theorem holding_offset (shape : whole = before ++ b :: after) :
    Fence.holding (layOut whole) (offset before) = Fence.after none (linesOf before) := by
  obtain ⟨rest, lines⟩ := splitLines_layOut_split before b after
  rw [shape, Fence.holding, lines, offset, List.take_append_of_le_length (Nat.le_refl _), List.take_length]

theorem after_linesOf_singleton (long : Fence.Long held) (b : Text) :
    Fence.after held (linesOf [b]) = Fence.after held (Text.splitLines b) := by
  have shape : linesOf [b] = Text.splitLines b ++ [[]] := List.append_nil _
  rw [shape, Fence.after_append]
  exact Fence.next_blank (long.after _) (by simp [Text.Blank])

theorem after_linesOf (closed : ∀ b ∈ whole, Fence.after none (Text.splitLines b) = none) : Fence.after none (linesOf whole) = none := by
  induction whole with
  | nil => rfl
  | cons b rest ih =>
    have shape : linesOf (b :: rest) = linesOf [b] ++ linesOf rest := linesOf_append [b] rest
    rw [shape, Fence.after_append, after_linesOf_singleton Fence.long_none, closed b List.mem_cons_self]
    exact ih fun other member => closed other (List.mem_cons_of_mem b member)

/-- Blocks start outside of fences exactly if each block that another one follows closes what it opens. -/
theorem apart_iff : Apart (layOut whole) whole ↔
    ∀ before b after, whole = before ++ b :: after → after ≠ [] → Fence.after none (Text.splitLines b) = none := by
  constructor
  · intro apart before b after shape some
    obtain ⟨next, rest, follows⟩ := List.exists_cons_of_ne_nil some
    have here := apart before b after shape
    rw [holding_offset shape] at here
    have shape' : whole = (before ++ [b]) ++ next :: rest := by rw [shape, follows]; simp
    have there := apart (before ++ [b]) next rest shape'
    rw [holding_offset shape', linesOf_append, Fence.after_append, here, after_linesOf_singleton Fence.long_none] at there
    exact there
  · intro closed before b after shape
    rw [holding_offset shape]
    apply after_linesOf
    intro a member
    obtain ⟨front, back, split⟩ := List.append_of_mem member
    exact closed front a (back ++ b :: after) (by rw [shape, split]; simp) (by simp)

theorem Apart.placed (apart : Apart (layOut whole) whole) (shape : whole = before ++ b :: after) :
    Placed (layOut whole) before b := by
  obtain ⟨rest, lines⟩ := splitLines_layOut_split before b after
  have start := apart before b after shape
  rw [holding_offset shape] at start
  rw [← shape] at lines
  constructor
  · intro i inside
    rw [lines, offset, List.getElem?_append_right (by omega), Nat.add_sub_cancel_left, List.getElem?_append_left inside]
  · intro i inside
    rw [Fence.holding, lines, offset, List.take_length_add_append, Fence.after_append, start,
      List.take_append_of_le_length (Nat.le_of_lt inside)]
    rfl

theorem splitLines_imagePlaceholder (d : Dialect) {mime : Text} (named : '\n' ∉ imageLabel mime) :
    Text.splitLines (imagePlaceholder d mime) = match d with
      | .mdx => [(":::note Output" : Text),
          ("Image output (" : Text) ++ (imageLabel mime ++ (" data) - please save and reference manually" : Text)), (":::" : Text)]
      | .markdown =>
        [("> **Output:** Image output (" : Text) ++ (imageLabel mime ++ (" data) - please save and reference manually" : Text))] := by
  have line : ∀ t : Text, Text.IsLine t →
      Text.IsLine (t ++ (imageLabel mime ++ (" data) - please save and reference manually" : Text))) := by
    intro t alone inside
    rcases List.mem_append.mp inside with inside | inside
    · exact alone inside
    · rcases List.mem_append.mp inside with inside | inside
      · exact named inside
      · revert inside
        decide
  cases d with
  | mdx =>
    have shape : imagePlaceholder .mdx mime = (":::note Output" : Text) ++ '\n' ::
        ((("Image output (" : Text) ++ (imageLabel mime ++ (" data) - please save and reference manually" : Text))) ++ '\n' :: (":::" : Text)) := by
      unfold imagePlaceholder
      simp only [String.reduceToList, List.cons_append, List.nil_append, List.append_assoc]
    have note := Text.splitLines_line (line ("Image output (" : Text) (by unfold Text.IsLine; decide))
    rw [shape, Text.splitLines_append, Text.splitLines_append, note]
    rfl
  | markdown => exact Text.splitLines_line (line ("> **Output:** Image output (" : Text) (by unfold Text.IsLine; decide))

theorem open?_imagePlaceholder (d : Dialect) {mime : Text} (named : '\n' ∉ imageLabel mime) :
    ∀ line ∈ Text.splitLines (imagePlaceholder d mime), Fence.open? line = none := by
  rw [splitLines_imagePlaceholder d named]
  cases d with
  | mdx =>
    have label : ∀ t : Text, Fence.open? (("Image output (" : Text) ++ t) = none :=
      fun t => Fence.open?_eq_none_of_head (c := 'I') rfl (by decide)
    simp only [List.forall_mem_cons, label, true_and]
    exact ⟨by decide, by decide, fun _ none => absurd none List.not_mem_nil⟩
  | markdown =>
    have label : ∀ t : Text, Fence.open? (("> **Output:** Image output (" : Text) ++ t) = none :=
      fun t => Fence.open?_eq_none_of_head (c := '>') rfl (by decide)
    simp only [List.forall_mem_cons, label, true_and]
    intro _ none
    exact absurd none List.not_mem_nil

theorem Verbatim.closed (verbatim : Verbatim d images known b) (plain : ∀ info ∈ known, '`' ∉ info)
    (named : ∀ mime ∈ images, '\n' ∉ imageLabel mime) : Fence.after none (Text.splitLines b) = none := by
  cases verbatim with
  | block listed content => exact (Fence.block_encloses (plain _ listed) content).after_eq_none
  | note shown => exact Fence.after_of_prose (open?_imagePlaceholder d (named _ shown))

/-- Trimmed prose is padded prose without its padding. -/
theorem padded_trimProse (t : Text) : Text.Padded (Text.splitLines t) (Text.splitLines (trimProse t)) := by
  obtain ⟨v, shape, back, -⟩ := Text.dropEndWhile_split Text.isBlank (t.dropWhile fun c => c == '\n' || c == '\r')
  have front : Text.Blank (t.takeWhile fun c => c == '\n' || c == '\r') := by
    intro c inside
    have ends := List.mem_takeWhile_imp inside
    rw [Bool.or_eq_true, beq_iff_eq, beq_iff_eq] at ends
    rcases ends with rfl | rfl <;> decide
  have padded := Text.padded_splitLines front (trimProse t) back
  rwa [trimProse, Text.trimEnd, ← shape, List.takeWhile_append_dropWhile] at padded

theorem after_trimProse (rules : Rules) (source : Text) :
    Fence.after none (Text.splitLines (trimProse (sanitize rules source))) = Fence.after none (Text.splitLines source) := by
  rw [← Fence.after_of_padded (padded_trimProse _) Fence.long_none, splitLines_sanitize]
  exact (passed_run rules source).inStep.after

theorem exists_cell_of_block {before after : List Text} {cells : List Cell} (shape : cells.flatMap (blocksOf o n) = before ++ b :: after) :
    ∃ front c back first last, cells = front ++ c :: back ∧ blocksOf o n c = first ++ b :: last ∧
      after = last ++ back.flatMap (blocksOf o n) := by
  induction cells generalizing before with
  | nil =>
    rw [List.flatMap_nil, eq_comm, List.append_eq_nil_iff] at shape
    cases shape.2
  | cons c cells ih =>
    rw [List.flatMap_cons] at shape
    rcases List.append_eq_append_iff.mp shape with ⟨rest, split, later⟩ | ⟨rest, split, later⟩
    · obtain ⟨front, c', back, first, last, cells, own, behind⟩ := ih later
      exact ⟨c :: front, c', back, first, last, by rw [cells]; rfl, own, behind⟩
    · cases rest with
      | nil =>
        obtain ⟨front, c', back, first, last, cells, own, behind⟩ := @ih [] later.symm
        exact ⟨c :: front, c', back, first, last, by rw [cells]; rfl, own, behind⟩
      | cons x rest =>
        obtain ⟨rfl, rfl⟩ := List.cons.inj later
        exact ⟨[], c, cells, before, rest, rfl, split, rfl⟩

theorem not_mem_infos (plain : '`' ∉ language o n.metadata) : ∀ info ∈ infos o n, '`' ∉ info := by
  intro info member
  rcases List.mem_cons.mp member with rfl | member
  · exact plain
  · exact not_mem_outputInfos info member

/-- Every Markdown cell that a block follows closes the fences that it opens. -/
def Closed (o : PageOptions) (n : Notebook) : Prop :=
  ∀ front id source back, n.cells = front ++ .markdown id source :: back → back.flatMap (blocksOf o n) ≠ [] →
    Fence.after none (Text.splitLines source) = none

theorem closed_iff (plain : '`' ∉ language o n.metadata) (named : ∀ c ∈ n.cells, ∀ mime ∈ c.images, '\n' ∉ imageLabel mime) :
    Closed o n ↔ ∀ before b after, blocks o n = before ++ b :: after → after ≠ [] → Fence.after none (Text.splitLines b) = none := by
  constructor
  · intro closed before b after shape some
    obtain ⟨front, c, back, first, last, cells, own, behind⟩ := exists_cell_of_block shape
    have inside : c ∈ n.cells := by simp [cells]
    by_cases prose : ∃ id source, c = .markdown id source
    · obtain ⟨id, source, rfl⟩ := prose
      rw [blocksOf_markdown] at own
      split at own
      · simp at own
      · obtain ⟨rfl, rfl, rfl⟩ : first = [] ∧ b = trimProse (sanitize o.rules source) ∧ last = [] := by
          cases first with
          | nil => simpa [eq_comm] using own
          | cons a first => simp at own
        rw [after_trimProse]
        exact closed front id source back cells (by simpa [behind] using some)
    · have member : b ∈ blocksOf o n c := by simp [own]
      have verbatim := verbatim_of_mem member fun id source same => prose ⟨id, source, same⟩
      exact verbatim.closed (not_mem_infos plain) (named c inside)
  · intro closed front id source back cells some
    by_cases blank : Text.allBlank source = true
    · have lines := Text.padded_blanks fun line member =>
        Text.blank_of_mem_splitLines (t := source) (by simpa [Text.allBlank, Text.Blank] using blank) member
      exact Fence.after_of_padded lines Fence.long_none
    · rw [← after_trimProse o.rules]
      refine closed (front.flatMap (blocksOf o n)) _ (back.flatMap (blocksOf o n)) ?_ some
      rw [blocks, cells, List.flatMap_append, List.flatMap_cons, blocksOf_markdown, if_neg blank]
      rfl

/-- The blocks of a page are isolated exactly if every Markdown cell that a block follows closes the fences that it opens.
Then every line of the page lies in the fence that it lies in within its block, and the lines of code and output lie in
the fence of their own block. -/
theorem fences_isolated_iff (o : PageOptions) (n : Notebook) (plain : '`' ∉ language o n.metadata)
    (named : ∀ c ∈ n.cells, ∀ mime ∈ c.images, '\n' ∉ imageLabel mime) :
    (Isolated o n ↔ Closed o n) ∧
    (Isolated o n → ∀ before b after, blocks o n = before ++ b :: after → Placed (renderBody o n).1 before b) ∧
    ∀ c ∈ n.cells, (∀ id source, c ≠ .markdown id source) → ∀ b ∈ blocksOf o n c,
      (∃ mime ∈ c.images, b = imagePlaceholder o.dialect mime) ∨
        ∃ fence info content, b = Fence.block info content ∧
          Fence.Encloses fence ((Text.splitLines info).tail ++ Fence.contentLines content) (Text.splitLines b) ∧
          ∀ i, 0 < i → i < (Text.splitLines b).length → Fence.holding b i = some fence := by
  rw [Isolated, renderBody_fst, apart_iff, closed_iff plain named]
  refine ⟨Iff.rfl, ?_, ?_⟩
  · intro closed before b after shape
    exact (apart_iff.mpr closed).placed shape
  · intro c inside other b member
    cases verbatim_of_mem member other with
    | block listed content =>
      have encloses := Fence.block_encloses (not_mem_infos plain _ listed) content
      exact Or.inr ⟨_, _, content, rfl, encloses, fun i first last => encloses.after_take first last⟩
    | note shown => exact Or.inl ⟨_, shown, rfl⟩

theorem fences_isolated_listing :
    '`' ∉ language {} {} ∧ (∀ c ∈ [Cell.markdown none "Run `f`:", .code none "f()" none [.stream "stdout" "```"]],
        ∀ mime ∈ c.images, '\n' ∉ imageLabel mime) ∧
      Isolated {} ⟨4, 5, {}, [.markdown none "Run `f`:", .code none "f()" none [.stream "stdout" "```"]]⟩ := by
  have plain : '`' ∉ language {} {} := by decide
  have named : ∀ c ∈ [Cell.markdown none "Run `f`:", .code none "f()" none [.stream "stdout" "```"]],
      ∀ mime ∈ c.images, '\n' ∉ imageLabel mime := by decide
  refine ⟨plain, named, (fences_isolated_iff {} ⟨4, 5, {}, _⟩ plain named).1.mpr ?_⟩
  intro front id source back shape _
  rcases front with _ | ⟨c, _ | ⟨c', front⟩⟩ <;> simp at shape
  rw [← shape.1.2]
  decide

/-- A fence that a Markdown cell leaves open, a language that keeps a fence from opening and a label that opens one reach
into the next block. -/
theorem fences_not_isolated :
    ¬ Isolated {} ⟨4, 5, {}, [.markdown none "```", .markdown none "x"]⟩ ∧
      ¬ Isolated {} ⟨4, 5, { language := some ("a`" : Text) }, [.code none "x" none [], .raw none "y"]⟩ ∧
      ¬ Isolated {} ⟨4, 5, {}, [.code none [] none [.displayData ⟨[("image/\n```", [])]⟩], .raw none "y"]⟩ := by
  refine ⟨?_, ?_, ?_⟩ <;> rw [Isolated, renderBody_fst, apart_iff] <;> intro closed
  · exact absurd (closed [] "```" ["x"] (by decide) (by decide)) (by decide)
  · exact absurd (closed [] "```a`\nx\n```" ["```\ny\n```"] (by decide) (by decide)) (by decide)
  · exact absurd (closed [] (imagePlaceholder .mdx "image/\n```") ["```\ny\n```"] (by decide) (by decide)) (by decide)

end Page
end NotebookPages
