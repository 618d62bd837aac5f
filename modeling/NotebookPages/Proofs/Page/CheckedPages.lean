import NotebookPages.Proofs.Document.Checking
import NotebookPages.Proofs.Document.Generated
import NotebookPages.Proofs.Markup.Found
import NotebookPages.Proofs.Page.Isolation

/-! What a check finds on the page of a notebook. Blocks that leave no fence open are checked one by one, code is never
read, and prose is what a pass wrote without the blanks around it. -/

namespace NotebookPages.Page

open Markup

variable {o : PageOptions} {n : Notebook} {d : Dialect} {rules : Rules} {b w mime : Text} {whole images known : List Text} {c : Cell}


/-- Every block that another one follows leaves no fence open. -/
def ClosedBlocks (whole : List Text) : Prop :=
  ∀ before b after, whole = before ++ b :: after → after ≠ [] → Fence.after none (Text.splitLines b) = none

theorem ClosedBlocks.tail (closed : ClosedBlocks (b :: whole)) : ClosedBlocks whole :=
  fun before other after shape some => closed (b :: before) other after (by rw [shape]; rfl) some

/-- The lines of prose on a page are those of its blocks and the blank lines in between. -/
theorem proseLines_linesOf (closed : ClosedBlocks whole) :
    proseLines none (linesOf whole) =
      whole.flatMap fun b => proseLines none (Text.splitLines b) ++ proseLines (Fence.after none (Text.splitLines b)) [[]] := by
  induction whole with
  | nil => rfl
  | cons b rest ih =>
    have shape : linesOf (b :: rest) = Text.splitLines b ++ ([[]] ++ linesOf rest) := by simp [linesOf]
    rw [shape, proseLines_append, proseLines_append, List.flatMap_cons, ← List.append_assoc]
    by_cases last : rest = []
    · subst last
      rfl
    · have here := closed [] b rest rfl last
      have blank : Fence.after none [[]] = none := rfl
      rw [here, blank, ih closed.tail]

theorem eq_nil_of_mem_blank {held : Option Fence} (member : w ∈ proseLines held [[]]) : w = [] := by
  rw [proseLines, proseLines] at member
  split at member
  · exact List.mem_singleton.mp member
  · cases member

theorem tidy_nil (rules : Rules) : Tidy rules [] := ⟨Nat.zero_le _, by simp [problemsOf, scanLine, scanFrom, Clean]⟩

theorem tidy_linesOf_iff (closed : ClosedBlocks whole) : (∀ line ∈ proseLines none (linesOf whole), Tidy rules line) ↔
    ∀ b ∈ whole, ∀ line ∈ proseLines none (Text.splitLines b), Tidy rules line := by
  rw [proseLines_linesOf closed]
  constructor
  · intro tidy b member line inside
    exact tidy line (List.mem_flatMap_of_mem member (List.mem_append_left _ inside))
  · intro tidy line inside
    obtain ⟨b, member, inside⟩ := List.mem_flatMap.mp inside
    rcases List.mem_append.mp inside with inside | blank
    · exact tidy b member line inside
    · rw [eq_nil_of_mem_blank blank]
      exact tidy_nil rules

/-- What is found in the blocks is found in each by itself. -/
theorem found_linesOf {α : Type} (f : Piece → Option α) (closed : ClosedBlocks whole) : found d f none (linesOf whole) =
    whole.flatMap fun b => found d f none (Text.splitLines b) := by
  rw [found, proseLines_linesOf closed, List.flatMap_assoc]
  apply List.flatMap_congr
  intro b _
  have none : (proseLines (Fence.after Option.none (Text.splitLines b)) [[]]).flatMap (fun line => (scanLine d line).filterMap f) = [] :=
    List.flatMap_eq_nil_iff.mpr fun line blank => by rw [eq_nil_of_mem_blank blank]; rfl
  rw [List.flatMap_append, none, List.append_nil, found]

/-- The tags in the prose of a block. -/
def blockTags (d : Dialect) (b : Text) : List Tag := (proseLines none (Text.splitLines b)).flatMap (tagsOf d)

theorem tags_linesOf (closed : ClosedBlocks whole) : (proseLines none (linesOf whole)).flatMap (tagsOf d) =
    whole.flatMap (blockTags d) := found_linesOf Piece.tag? closed

theorem clear_cons_nil_iff {lines : List Text} : Clear rules ([] :: lines) ↔ Clear rules lines := by
  have first : proseLines none ([] :: lines) = [] :: proseLines none lines := rfl
  have none : tagsOf rules.dialect [] = [] := rfl
  constructor
  · rintro ⟨tidy, balanced⟩
    rw [first] at tidy balanced
    rw [List.flatMap_cons, none, List.nil_append] at balanced
    exact ⟨(List.forall_mem_cons.mp tidy).2, balanced⟩
  · rintro ⟨tidy, balanced⟩
    refine ⟨?_, ?_⟩
    · rw [first]
      exact List.forall_mem_cons.mpr ⟨tidy_nil rules, tidy⟩
    · rw [first, List.flatMap_cons, none, List.nil_append]
      exact balanced

/-- The blocks of a page are checked one by one, and their tags together. -/
theorem clear_layOut_iff (rules : Rules) (closed : ClosedBlocks whole) : Clear rules (Text.splitLines (layOut whole)) ↔
    (∀ b ∈ whole, ∀ line ∈ proseLines none (Text.splitLines b), Tidy rules line) ∧
      Balanced (whole.flatMap (blockTags rules.dialect)) := by
  have lines : Clear rules (linesOf whole) ↔ (∀ b ∈ whole, ∀ line ∈ proseLines none (Text.splitLines b), Tidy rules line) ∧
      Balanced (whole.flatMap (blockTags rules.dialect)) := by
    rw [← tidy_linesOf_iff closed, ← tags_linesOf closed]
    exact ⟨fun clear => ⟨clear.tidy, clear.balanced⟩, fun both => ⟨both.1, both.2⟩⟩
  rw [← lines]
  by_cases empty : whole = []
  · subst empty
    exact clear_cons_nil_iff
  · rcases splitLines_layOut empty with same | ⟨rfl, same⟩
    · rw [same]
    · rw [same]
      exact clear_cons_nil_iff.symm

theorem proseLines_block {info : Text} (plain : '`' ∉ info) (content : Text) :
    proseLines none (Text.splitLines (Fence.block info content)) = [] :=
  proseLines_of_encloses (Fence.block_encloses plain content)

theorem proseLines_imagePlaceholder (d : Dialect) (named : '\n' ∉ imageLabel mime) :
    proseLines none (Text.splitLines (imagePlaceholder d mime)) = Text.splitLines (imagePlaceholder d mime) :=
  proseLines_of_prose (open?_imagePlaceholder d named)

theorem tags_imagePlaceholder (d : Dialect) (named : '<' ∉ imageLabel mime) : blockTags d (imagePlaceholder d mime) = [] := by
  have absent : '<' ∉ imagePlaceholder d mime := by
    unfold imagePlaceholder
    generalize imageLabel mime = label at named ⊢
    cases d <;> simp [named]
  have prose : ∀ held (lines : List Text), (∀ line ∈ lines, '<' ∉ line) → (proseLines held lines).flatMap (tagsOf d) = [] := by
    intro held lines
    induction lines generalizing held with
    | nil => exact fun _ => rfl
    | cons line lines ih =>
      intro none
      rw [List.forall_mem_cons] at none
      rw [proseLines]
      split
      · rw [List.flatMap_cons, tagsOf_of_not_mem none.1, ih _ none.2]
        rfl
      · exact ih _ none.2
  exact prose none _ fun line member inside => absent ((Text.infix_of_mem_splitLines member).subset inside)

theorem Verbatim.tags (verbatim : Verbatim d images known b) (plain : ∀ info ∈ known, '`' ∉ info)
    (named : ∀ mime ∈ images, '<' ∉ imageLabel mime) : blockTags d b = [] := by
  cases verbatim with
  | block listed content => rw [blockTags, proseLines_block (plain _ listed)]; rfl
  | note shown => exact tags_imagePlaceholder d (named _ shown)

theorem mem_blocks_of_markdown {id : Option Text} {source : Text} (member : .markdown id source ∈ n.cells) (some : Text.allBlank source = false) :
    trimProse (sanitize o.rules source) ∈ blocks o n := by
  apply List.mem_flatMap_of_mem member
  rw [blocksOf_markdown, some]
  exact List.mem_singleton.mpr rfl

/-- The blocks of the page stay apart: no language and no image label carries markup into it, and no Markdown cell leaves a
fence open for the block after it. -/
structure Orderly (o : PageOptions) (n : Notebook) : Prop where
  plain : '`' ∉ language o n.metadata
  named : ∀ c ∈ n.cells, ∀ mime ∈ c.images, '\n' ∉ imageLabel mime ∧ '<' ∉ imageLabel mime
  closed : Closed o n

def shownSources (n : Notebook) : List Text := n.markdownSources.filter (!Text.allBlank ·)

/-- What is written for the Markdown cells can be read as it stands, and the notes for images are tidy. -/
structure Legible (o : PageOptions) (n : Notebook) : Prop where
  distinct : ∀ source ∈ shownSources n, ∀ l ∈ (Pass.run o.rules source).lines, l.Distinct o.dialect
  fits : ∀ source ∈ shownSources n,
    ∀ line ∈ proseLines none (Text.splitLines (trimProse (sanitize o.rules source))), line.length ≤ o.maxLine
  notes : ∀ c ∈ n.cells, ∀ mime ∈ c.images, ∀ line ∈ Text.splitLines (imagePlaceholder o.dialect mime), Tidy o.rules line

theorem mem_shownSources {source : Text} :
    source ∈ shownSources n ↔ (∃ id, .markdown id source ∈ n.cells) ∧ Text.allBlank source = false := by
  rw [shownSources, List.mem_filter, Notebook.markdownSources, List.mem_filterMap, Bool.not_eq_true']
  refine and_congr_left fun _ => ⟨?_, ?_⟩
  · rintro ⟨c, member, same⟩
    cases c with
    | markdown id text =>
      obtain rfl := Option.some.inj same
      exact ⟨id, member⟩
    | code | raw | unsupported => cases same
  · rintro ⟨id, member⟩
    exact ⟨_, member, rfl⟩

/-- The tags of a cell's prose that a pass keeps. -/
def keptTags (o : PageOptions) : Cell → List Tag
  | .markdown _ source => if Text.allBlank source then [] else (Pass.run o.rules source).lines.flatMap Line.tags
  | _ => []

theorem balanced_keptTags (o : PageOptions) (cells : List Cell) : Balanced (cells.flatMap (keptTags o)) := by
  induction cells with
  | nil => exact .nil
  | cons c cells ih =>
    rw [List.flatMap_cons]
    refine Balanced.append ?_ ih
    cases c with
    | markdown id source =>
      rw [keptTags]
      split
      · exact .nil
      · exact balanced_run o.rules source
    | code | raw | unsupported => exact .nil

theorem wellFormed_keptTags {u : Tag} (member : u ∈ n.cells.flatMap (keptTags o)) : u.WellFormed := by
  obtain ⟨c, -, inside⟩ := List.mem_flatMap.mp member
  cases c with
  | markdown id source =>
    rw [keptTags] at inside
    split at inside
    · cases inside
    · exact wellFormed_run source inside
  | code | raw | unsupported => cases inside

theorem tags_blocks (orderly : Orderly o n) {f : List Tag → List Tag} (none : f [] = [])
    (append : ∀ ts us, f (ts ++ us) = f ts ++ f us)
    (prose : ∀ source ∈ shownSources n, blockTags o.dialect (trimProse (sanitize o.rules source)) =
      f ((Pass.run o.rules source).lines.flatMap Line.tags)) :
    (blocks o n).flatMap (blockTags o.dialect) = f (n.cells.flatMap (keptTags o)) := by
  have cell : ∀ c ∈ n.cells, (blocksOf o n c).flatMap (blockTags o.dialect) = f (keptTags o c) := by
    intro c member
    by_cases markdown : ∃ id source, c = .markdown id source
    · obtain ⟨id, source, rfl⟩ := markdown
      rw [blocksOf_markdown, keptTags]
      split
      next => exact none.symm
      next some =>
        rw [List.flatMap_singleton]
        exact prose source (mem_shownSources.mpr ⟨⟨id, member⟩, by simpa using some⟩)
    · have other : ∀ id source, c ≠ .markdown id source := fun id source same => markdown ⟨id, source, same⟩
      have empty : keptTags o c = [] := by
        cases c with
        | markdown id source => exact absurd rfl (other id source)
        | code | raw | unsupported => rfl
      rw [empty, none, List.flatMap_eq_nil_iff]
      intro b inside
      exact (verbatim_of_mem inside other).tags (not_mem_infos orderly.plain) fun mime shown => (orderly.named c member mime shown).2
  have whole : ∀ cells : List Cell, f (cells.flatMap (keptTags o)) = cells.flatMap fun c => f (keptTags o c) := by
    intro cells
    induction cells with
    | nil => exact none
    | cons c cells ih => rw [List.flatMap_cons, List.flatMap_cons, append, ih]
  rw [blocks, List.flatMap_assoc, whole]
  exact List.flatMap_congr cell

theorem tidy_of_literal {line : Text} (literal : ∀ p ∈ scanLine rules.dialect line, p.Literal rules.dialect)
    (fits : line.length ≤ rules.maxLine) : Tidy rules line := by
  refine ⟨?_, ?_⟩
  · rw [totalWidth_of_literal literal, sources_scanLine]
    exact fits
  · rw [problemsOf, problems_of_literal literal]
    intro p none
    exact absurd none List.not_mem_nil

theorem block_cases (member : b ∈ blocks o n) :
    (∃ source ∈ shownSources n, b = trimProse (sanitize o.rules source)) ∨
      ∃ c ∈ n.cells, Verbatim o.dialect c.images (infos o n) b := by
  obtain ⟨c, cell, own⟩ := List.mem_flatMap.mp member
  by_cases markdown : ∃ id source, c = .markdown id source
  · obtain ⟨id, source, rfl⟩ := markdown
    rw [blocksOf_markdown] at own
    split at own
    next => cases own
    next some => exact Or.inl ⟨source, mem_shownSources.mpr ⟨⟨id, cell⟩, by simpa using some⟩, List.mem_singleton.mp own⟩
  · exact Or.inr ⟨c, cell, verbatim_of_mem own fun id source same => markdown ⟨id, source, same⟩⟩

theorem tidy_blocks_iff (orderly : Orderly o n) : (∀ b ∈ blocks o n, ∀ line ∈ proseLines none (Text.splitLines b), Tidy o.rules line) ↔
    (∀ source ∈ shownSources n, ∀ line ∈ proseLines none (Text.splitLines (trimProse (sanitize o.rules source))), Tidy o.rules line) ∧
      ∀ c ∈ n.cells, ∀ mime ∈ c.images, ∀ line ∈ Text.splitLines (imagePlaceholder o.dialect mime), Tidy o.rules line := by
  have note : ∀ c ∈ n.cells, ∀ mime ∈ c.images,
      proseLines none (Text.splitLines (imagePlaceholder o.dialect mime)) = Text.splitLines (imagePlaceholder o.dialect mime) :=
    fun c member mime image => proseLines_imagePlaceholder _ (orderly.named c member mime image).1
  constructor
  · intro tidy
    constructor
    · intro source member
      obtain ⟨⟨id, inside⟩, some⟩ := mem_shownSources.mp member
      exact tidy _ (mem_blocks_of_markdown inside some)
    · intro c member mime image
      rw [← note c member mime image]
      exact tidy _ (List.mem_flatMap_of_mem member (note_mem_blocksOf image))
  · rintro ⟨prose, notes⟩ b member
    rcases block_cases member with ⟨source, shown, rfl⟩ | ⟨c, cell, verbatim⟩
    · exact prose source shown
    · cases verbatim with
      | block listed content =>
        rw [proseLines_block (not_mem_infos orderly.plain _ listed)]
        intro line none
        exact absurd none List.not_mem_nil
      | @note mime image =>
        rw [note c cell mime image]
        exact notes c cell mime image

/-- The tags that are read as tags again once they are written. -/
def taggedAgain (d : Dialect) (ts : List Tag) : List Tag := (ts.filter (!·.isLinkLike d)).map (Tag.normal d)

theorem taggedAgain_append (d : Dialect) (ts us : List Tag) : taggedAgain d (ts ++ us) = taggedAgain d ts ++ taggedAgain d us := by
  rw [taggedAgain, List.filter_append, List.map_append]
  rfl

/-- No tag is read as an autolink where the tags that are left are balanced. -/
theorem distinct_of_tidy (orderly : Orderly o n) (balanced : Balanced ((blocks o n).flatMap (blockTags o.dialect)))
    (tidy : ∀ source ∈ shownSources n, ∀ line ∈ proseLines none (Text.splitLines (trimProse (sanitize o.rules source))),
      Clean (problemsOf o.dialect line)) :
    ∀ source ∈ shownSources n, ∀ l ∈ (Pass.run o.rules source).lines, l.Distinct o.dialect := by
  have read := fun source member => tags_of_clean (padded_trimProse (sanitize o.rules source)) (tidy source member)
  have left := tags_blocks orderly (f := taggedAgain o.dialect) rfl (taggedAgain_append _) fun source member => (read source member).1
  have plain : ∀ u ∈ n.cells.flatMap (keptTags o), u.isLinkLike o.dialect = false := by
    refine distinct_of_balanced (fun u member link => opening_of_isLinkLike (wellFormed_keptTags member) link)
      (balanced_keptTags o n.cells) ?_
    rw [left] at balanced
    exact balanced
  intro source member
  apply (read source member).2
  intro u inside
  apply plain u
  obtain ⟨⟨id, cell⟩, some⟩ := mem_shownSources.mp member
  apply List.mem_flatMap_of_mem cell
  rw [keptTags, if_neg (by simp [some])]
  exact inside

/-- An orderly page is clear exactly if it is legible. -/
theorem clear_blocks_iff (orderly : Orderly o n) : Clear o.rules (Text.splitLines (layOut (blocks o n))) ↔ Legible o n := by
  have closed : ClosedBlocks (blocks o n) :=
    (closed_iff orderly.plain fun c member mime shown => (orderly.named c member mime shown).1).mp orderly.closed
  rw [clear_layOut_iff o.rules closed, tidy_blocks_iff orderly]
  constructor
  · rintro ⟨⟨prose, notes⟩, balanced⟩
    have distinct := distinct_of_tidy orderly balanced fun source member line inside => (prose source member line inside).silent
    refine ⟨distinct, ?_, notes⟩
    intro source member line inside
    have literal := (literal_of_distinct (padded_trimProse (sanitize o.rules source)) (distinct source member)).1 line inside
    have fits := (prose source member line inside).fits
    rwa [totalWidth_of_literal literal, sources_scanLine] at fits
  · intro legible
    have read : ∀ source ∈ shownSources n, _ := fun source member =>
      literal_of_distinct (padded_trimProse (sanitize o.rules source)) (legible.distinct source member)
    refine ⟨⟨?_, legible.notes⟩, ?_⟩
    · intro source member line inside
      exact tidy_of_literal ((read source member).1 line inside) (legible.fits source member line inside)
    · have tags := tags_blocks orderly (f := List.map (Tag.normal o.dialect)) rfl (fun _ _ => List.map_append)
        fun source member => (read source member).2
      rw [show o.rules.dialect = o.dialect from rfl, tags]
      exact (balanced_keptTags o n.cells).normal o.dialect

/-- Nothing but an open fence is found on the page of a notebook exactly if the page is legible. Where a language, a label
or an open fence reaches into other blocks, every line of the page that is prose must be tidy, whichever block it is in. -/
theorem diagnose_page_clean_iff (o : PageOptions) (destination : Path) (n : Notebook) :
    (∀ f ∈ Document.diagnose o.rules (ofNotebook o destination n).content, f.problem = .unclosedFence) ↔
      (Orderly o n → Legible o n) ∧ (¬ Orderly o n → Clear o.rules (Text.splitLines (renderBody o n).1)) := by
  have body : (Document.split (ofNotebook o destination n).content).2 = '\n' :: (renderBody o n).1 := by
    rw [show (ofNotebook o destination n).content = Header.render _ ++ (renderBody o n).1 from rfl, Header.split_render_append]
  rw [Document.clean_diagnose_iff, body, clean_run_iff, Text.splitLines_newline, clear_cons_nil_iff, renderBody_fst]
  by_cases orderly : Orderly o n
  · rw [clear_blocks_iff orderly]
    exact ⟨fun legible => ⟨fun _ => legible, fun other => absurd orderly other⟩, fun both => both.1 orderly⟩
  · exact ⟨fun clear => ⟨fun first => absurd first orderly, fun _ => clear⟩, fun both => both.2 orderly⟩

/-- An image is found once an autolink is written as a link, a label and a language carry markup into the page, a note can be
longer than the limit, and a fence that a Markdown cell leaves open makes prose of the code that follows. -/
theorem diagnose_page_not_clean :
    (Document.diagnose {} (ofNotebook {} "a.mdx" ⟨4, 5, {}, [.markdown none "[x](data:a <https://e.com>"]⟩).content).map
        Finding.problem = [.dataUrl] ∧
      (Document.diagnose {} (ofNotebook {} "a.mdx" ⟨4, 5, {}, [.code none [] none [.displayData ⟨[("image/\x7bx\x7d", [])]⟩]]⟩).content).map
        Finding.problem = [.unescapedBrace] ∧
      (Document.diagnose ⟨.mdx, 50⟩ (ofNotebook { maxLine := 50 } "a.mdx" ⟨4, 5, {}, [.code none [] none [.displayData ⟨[("image/png", [])]⟩]]⟩).content).map
        Finding.problem = [.longLine] ∧
      (Document.diagnose {} (ofNotebook {} "a.mdx" ⟨4, 5, { language := some ("a`" : Text) }, [.code none "\x7bx\x7d" none []]⟩).content).map
        Finding.problem = [.unescapedBrace, .unclosedFence] ∧
      (Document.diagnose {} (ofNotebook {} "a.mdx" ⟨4, 5, {}, [.markdown none "```", .code none "```\n\x7bx\x7d" none []]⟩).content).map
        Finding.problem = [.unescapedBrace, .unclosedFence] := by
  decide +kernel

end NotebookPages.Page
