import NotebookPages.Proofs.Markup.Fronts
import NotebookPages.Proofs.Page.CheckedPages
import NotebookPages.Reference.Page

/-! The pages of a manifest by blocks. Behind its header a page is a run of headings, passages, code and remarks, and an index
ends with its members. The lines of the page are those of its blocks, up to blank lines and what a page loses at its end. -/

namespace NotebookPages.Reference

open Markup
open Page (linesOf)

/-- What pages say whatever their manifest says. -/
inductive Remark where
  | rule
  | pending
  | usage
  | available
  | elsewhere
  deriving DecidableEq, Repr

def Remark.text : Remark → Text
  | rule => "---"
  | pending => "*Detailed reference for this module is not generated yet.*"
  | usage => "## Usage"
  | available => "## Available Modules"
  | elsewhere => "*See the individual module pages for detailed documentation.*"

inductive Block where
  | heading (depth : Nat) (source : Text)
  | passage (source : Text)
  | code (content : Text)
  | remark (r : Remark)
  | member (title : Text) (source target : Path) (description : Text)
  deriving DecidableEq, Repr

def bullet (label link : Text) : Text := "- **[" ++ label ++ "](" ++ link ++ ")**"

def Block.text (language : Text) : Block → Text
  | heading depth source => mark (depth + 1) ++ prose .mdx source
  | passage source => prose .mdx source
  | code content => Fence.block language content
  | remark r => r.text
  | member title source target description => bullet (prose .mdx title) (relativeLink source target) ++
      if Text.allBlank description then [] else (": " : Text) ++ prose .mdx description

def passages (source : Text) : List Block := if Text.allBlank source then [] else [.passage source]

def Entry.blocks (e : Entry) : List Block :=
  .heading 2 e.name :: .code e.shownSignature :: (passages e.description ++ [.remark .rule])

def Section.blocks (s : Section) : List Block := .heading 1 s.heading :: s.entries.flatMap Entry.blocks

def SymbolPage.blocks (p : SymbolPage) : List Block :=
  .heading 0 p.title :: (passages p.intro ++ p.sections.flatMap Section.blocks)

/-- The rule after the last entry is left out. -/
def withoutRule (blocks : List Block) : List Block :=
  if blocks.getLast? = some (.remark .rule) then blocks.dropLast else blocks

def members (m : Manifest) (p : IndexPage) : List Block :=
  (m.modules.filter (·.group = some p.group)).map fun x => .member x.title p.path x.path x.description

/-- What a page is about. -/
inductive Topic where
  | symbols (p : SymbolPage)
  | stub (p : ModulePage)
  | index (p : IndexPage)
  deriving DecidableEq, Repr

def topics (m : Manifest) : List Topic := m.pages.map .symbols ++ m.modules.map .stub ++ m.indexes.map .index

namespace Topic

def page (m : Manifest) : Topic → GeneratedPage
  | symbols p => symbolPage .mdx m p
  | stub p => modulePage .mdx m p
  | index p => indexPage .mdx m p

def blocks (m : Manifest) : Topic → List Block
  | symbols p => withoutRule p.blocks
  | stub p => .heading 0 p.title :: (passages p.description ++ [.remark .pending, .remark .usage, .code (Reference.usage m p)])
  | index p => .heading 0 p.title :: (passages p.description ++
      if (members m p).isEmpty then [.remark .elsewhere] else .remark .available :: members m p)

def texts (m : Manifest) (topic : Topic) : List Text := (topic.blocks m).map (Block.text m.language)

end Topic

variable {m : Manifest} {topic : Topic} {language : Text} {bs : List Block} {d : Dialect} {α : Type} {f : Piece → Option α}
  {a b texts : List Text} {u v w : Text}

theorem generate_eq (m : Manifest) : generate .mdx m = (topics m).map (Topic.page m) := by
  simp only [generate, topics, List.map_append, List.map_map]
  rfl

/-- Blocks with a blank line after each. -/
def paragraphs (texts : List Text) : Text := texts.flatMap paragraph

/-- Blocks without a blank line in between. -/
def compact (texts : List Text) : Text := texts.flatMap Text.line

theorem splitLines_paragraphs (a : List Text) (t : Text) :
    Text.splitLines (paragraphs a ++ t) = linesOf a ++ Text.splitLines t := by
  induction a with
  | nil => rfl
  | cons b a ih =>
    have shape : paragraphs (b :: a) ++ t = b ++ '\n' :: '\n' :: (paragraphs a ++ t) := by simp [paragraphs, paragraph]
    rw [shape, Text.splitLines_append, Text.splitLines_newline, ih]
    simp [linesOf]

theorem splitLines_compact (b : List Text) : Text.splitLines (compact b) = b.flatMap Text.splitLines ++ [[]] := by
  induction b with
  | nil => rfl
  | cons t b ih =>
    have shape : compact (t :: b) = t ++ '\n' :: compact b := by simp [compact, Text.line]
    rw [shape, Text.splitLines_append, ih, List.flatMap_cons, List.append_assoc]

theorem padded_linesOf (b : List Text) : Text.Padded (linesOf b) (b.flatMap Text.splitLines) := by
  induction b with
  | nil => exact .nil
  | cons t b ih =>
    have first : Text.Padded (Text.splitLines t ++ [[]]) (Text.splitLines t ++ []) :=
      (Text.padded_refl _).append (.blank Text.blank_nil .nil)
    rw [List.append_nil] at first
    exact first.append ih

theorem found_of_padded (silent : Silent f) (padded : Text.Padded a b) : found d f none a = found d f none b :=
  gather_of_padded (fun c => silent [c]) padded Fence.long_none

/-- Blank lines between blocks do not matter. -/
theorem found_compact (silent : Silent f) (a b : List Text) :
    found d f none (Text.splitLines (paragraphs a ++ compact b)) = found d f none (linesOf (a ++ b)) := by
  rw [splitLines_paragraphs, splitLines_compact, Page.linesOf_append, ← List.append_assoc, found_append _ _ [[]], found_nil_line,
    List.append_nil]
  exact (found_of_padded silent ((Text.padded_refl _).append (padded_linesOf b))).symm

theorem found_paragraphs (silent : Silent f) (a : List Text) :
    found d f none (Text.splitLines (paragraphs a)) = found d f none (linesOf a) := by
  have whole := found_compact (d := d) silent a []
  rwa [show compact [] = [] from rfl, List.append_nil, List.append_nil] at whole

def shown (language : Text) (bs : List Block) : Text := paragraphs (bs.map (Block.text language))

theorem shown_append (language : Text) (a b : List Block) : shown language (a ++ b) = shown language a ++ shown language b := by
  rw [shown, List.map_append]
  exact List.flatMap_append

theorem shown_cons (language : Text) (b : Block) (bs : List Block) :
    shown language (b :: bs) = paragraph (b.text language) ++ shown language bs := List.flatMap_cons

theorem shown_nil (language : Text) : shown language [] = [] := rfl

theorem shown_flatMap {β : Type} (language : Text) (f : β → List Block) (bs : List β) :
    shown language (bs.flatMap f) = bs.flatMap fun b => shown language (f b) := by
  induction bs with
  | nil => rfl
  | cons b bs ih => rw [List.flatMap_cons, shown_append, ih, List.flatMap_cons]

theorem shown_passages (language source : Text) : shown language (passages source) = proseUnlessBlank .mdx source := by
  unfold passages proseUnlessBlank
  split
  · rfl
  · exact List.append_nil _

theorem shown_entry (language : Text) (e : Entry) : shown language e.blocks = entryText .mdx language e := by
  rw [Entry.blocks, shown_cons, shown_cons, shown_append, shown_passages, shown_cons, shown_nil, List.append_nil, entryText,
    List.append_assoc, List.append_assoc]
  rfl

theorem shown_section (language : Text) (s : Section) : shown language s.blocks = sectionText .mdx language s := by
  rw [Section.blocks, shown_cons, shown_flatMap, sectionText]
  congr 1
  exact List.flatMap_congr fun e _ => shown_entry language e

/-- Every page begins with its header and its title. -/
theorem exists_opening (language title description : Text) (position : Option Int) : ∃ header : Header,
    opening .mdx title description position ++ proseUnlessBlank .mdx description =
      header.render ++ shown language (.heading 0 title :: passages description) := by
  rw [shown_cons, shown_passages]
  exact ⟨_, List.append_assoc _ _ _⟩

theorem exists_withoutRule (language : Text) (bs : List Block) :
    ∃ v, (∀ c ∈ v, isTrailing c = true) ∧ shown language bs = shown language (withoutRule bs) ++ v := by
  unfold withoutRule
  split
  next last =>
    refine ⟨paragraph "---", Text.forall_mem_of_all (by decide), ?_⟩
    obtain ⟨front, rfl⟩ := List.getLast?_eq_some_iff.mp last
    rw [List.dropLast_concat, shown_append, shown_cons, shown_nil, List.append_nil]
    rfl
  next => exact ⟨[], List.forall_mem_nil _, (List.append_nil _).symm⟩

theorem dropRules_split (t : Text) : ∃ dashes, t = dashes ++ dropRules t ∧ ∀ c ∈ dashes, c = '-' := by
  fun_induction dropRules t with
  | case1 rest ih =>
    obtain ⟨dashes, shape, all⟩ := ih
    refine ⟨'-' :: '-' :: '-' :: dashes, congrArg (['-', '-', '-'] ++ ·) shape, ?_⟩
    simpa using all
  | case2 t => exact ⟨[], rfl, List.forall_mem_nil _⟩

/-- A finished text has lost blanks and dashes at its end. -/
theorem finish_split (t : Text) : ∃ u v, t = u ++ v ∧ (∀ c ∈ v, isTrailing c = true) ∧ finish t = u ++ ['\n'] := by
  obtain ⟨v, whole, blank, -⟩ := Text.dropEndWhile_split Text.isBlank t
  obtain ⟨dashes, ruled, all⟩ := dropRules_split (Text.trimEnd t).reverse
  obtain ⟨w, rest, blank', -⟩ := Text.dropEndWhile_split Text.isBlank (dropRules (Text.trimEnd t).reverse).reverse
  have front : Text.trimEnd t = (dropRules (Text.trimEnd t).reverse).reverse ++ dashes.reverse := by
    rw [← List.reverse_append, ← ruled, List.reverse_reverse]
  refine ⟨_, w ++ (dashes.reverse ++ v), ?_, ?_, rfl⟩
  · rw [← List.append_assoc, ← List.append_assoc, Text.trimEnd, ← rest, ← front]
    exact whole
  · intro c inside
    rw [isTrailing, Bool.or_eq_true, beq_iff_eq]
    rcases List.mem_append.mp inside with inside | inside
    · exact Or.inl (blank' c inside)
    · rcases List.mem_append.mp inside with inside | inside
      · exact Or.inr (all c (List.mem_reverse.mp inside))
      · exact Or.inl (blank c inside)

/-- A page of symbols holds the header and the blocks, but for blanks and dashes at its end. -/
theorem exists_symbols (m : Manifest) (p : SymbolPage) : ∃ (header : Header) (u w : Text),
    (symbolPage .mdx m p).content = header.render ++ (u ++ ['\n']) ∧ shown m.language p.blocks = u ++ w ∧
      ∀ c ∈ w, isTrailing c = true := by
  obtain ⟨header, opened⟩ := exists_opening m.language p.title p.intro p.position
  have whole : opening .mdx p.title p.intro p.position ++ proseUnlessBlank .mdx p.intro ++
      p.sections.flatMap (sectionText .mdx m.language) = header.render ++ shown m.language p.blocks := by
    rw [opened, SymbolPage.blocks, ← List.cons_append, shown_append, shown_flatMap, List.append_assoc]
    simp only [shown_section]
  obtain ⟨u, w, shape, trailing, finished⟩ := finish_split (header.render ++ shown m.language p.blocks)
  rw [← whole] at finished
  rcases List.append_eq_append_iff.mp shape with ⟨front, rfl, rest⟩ | ⟨back, -, rest⟩
  · exact ⟨header, front, w, finished.trans (List.append_assoc _ _ _), rest, trailing⟩
  · -- the mark of the title is not lost
    have mark : '#' ∈ shown m.language p.blocks := List.mem_append_left _ List.mem_cons_self
    have lost := trailing '#' (rest ▸ List.mem_append_right _ mark)
    exact absurd lost (by decide)

/-- The page holds the header and the blocks, the last ones without blank lines in between. -/
structure LaidOut (m : Manifest) (topic : Topic) (header : Header) (a b : List Block) : Prop where
  content : (topic.page m).content = header.render ++ (shown m.language a ++ compact (b.map (Block.text m.language)))
  blocks : topic.blocks m = a ++ b

/-- The page of a module ends with its usage. -/
theorem exists_stub (m : Manifest) (p : ModulePage) : ∃ header a b, LaidOut m (.stub p) header a b := by
  obtain ⟨header, opened⟩ := exists_opening m.language p.title p.description p.position
  refine ⟨header, (.heading 0 p.title :: passages p.description) ++ [.remark .pending, .remark .usage], [.code (usage m p)], ?_, ?_⟩
  · have last : compact ([.code (usage m p)].map (Block.text m.language)) = Text.line (Fence.block m.language (usage m p)) :=
      List.append_nil _
    rw [last, shown_append, Topic.page, modulePage, opened]
    simp only [List.append_assoc]
    rfl
  · rw [Topic.blocks, ← List.cons_append, List.append_assoc]
    rfl

theorem compact_members (m : Manifest) (p : IndexPage) : compact ((members m p).map (Block.text m.language)) =
    (m.modules.filter (·.group = some p.group)).flatMap (indexLine .mdx p) := by
  rw [members, List.map_map, compact, List.flatMap_map]
  rfl

/-- An index ends with its members, or with the remark that it has none. -/
theorem exists_index (m : Manifest) (p : IndexPage) : ∃ header a b, LaidOut m (.index p) header a b := by
  obtain ⟨header, opened⟩ := exists_opening m.language p.title p.description p.position
  have content : (indexPage .mdx m p).content = header.render ++ (shown m.language (.heading 0 p.title :: passages p.description) ++
      if (members m p).isEmpty then Text.line (Remark.text .elsewhere)
      else paragraph (Remark.text .available) ++ compact ((members m p).map (Block.text m.language))) := by
    rw [← List.append_assoc, ← opened, compact_members, members, List.isEmpty_map]
    rfl
  cases none : (members m p).isEmpty with
  | true =>
    refine ⟨header, .heading 0 p.title :: passages p.description, [.remark .elsewhere], ?_, ?_⟩
    · rw [Topic.page, content, if_pos none]
      rfl
    · rw [Topic.blocks, if_pos none]
      rfl
  | false =>
    refine ⟨header, (.heading 0 p.title :: passages p.description) ++ [.remark .available], members m p, ?_, ?_⟩
    · rw [Topic.page, content, if_neg (by simp [none]), shown_append, List.append_assoc]
      rfl
    · rw [Topic.blocks, if_neg (by simp [none]), ← List.cons_append, List.append_assoc]
      rfl

theorem LaidOut.found_body {header : Header} {a b : List Block} (laidOut : LaidOut m topic header a b) (silent : Silent f) :
    found .mdx f none (Text.splitLines (shown m.language a ++ compact (b.map (Block.text m.language)))) =
      found .mdx f none (linesOf (topic.texts m)) := by
  rw [Topic.texts, laidOut.blocks, List.map_append]
  exact found_compact silent _ _

/-- Behind its header a page holds what its blocks hold. -/
theorem exists_body (m : Manifest) (topic : Topic) : ∃ (header : Header) (body : Text),
    (topic.page m).content = header.render ++ body ∧ ∀ {α : Type} {f : Piece → Option α}, Silent f →
      found .mdx f none (Text.splitLines body) = found .mdx f none (linesOf (topic.texts m)) := by
  cases topic with
  | symbols p =>
    obtain ⟨header, u, w, content, shape, trailing⟩ := exists_symbols m p
    obtain ⟨v, trailing', ruled⟩ := exists_withoutRule m.language p.blocks
    refine ⟨header, u ++ ['\n'], content, fun silent => ?_⟩
    rw [found_trailing silent (Text.forall_mem_of_all (by decide)), ← found_trailing silent trailing, ← shape, ruled,
      found_trailing silent trailing']
    exact found_paragraphs silent _
  | stub p =>
    obtain ⟨header, a, b, laidOut⟩ := exists_stub m p
    exact ⟨header, _, laidOut.content, laidOut.found_body⟩
  | index p =>
    obtain ⟨header, a, b, laidOut⟩ := exists_index m p
    exact ⟨header, _, laidOut.content, laidOut.found_body⟩

end NotebookPages.Reference
