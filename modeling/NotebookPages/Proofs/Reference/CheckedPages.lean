import NotebookPages.Proofs.Reference.Blocks
import NotebookPages.Proofs.Reference.Links

/-! What a check finds on the pages of a manifest. Headings, passages and descriptions are what a pass wrote for a text by itself,
but headings stand behind a mark, and descriptions in an index behind the link to their module. -/

namespace NotebookPages.Reference

open Markup
open Page (ClosedBlocks taggedAgain)

variable {m : Manifest} {topic : Topic} {language source label link u w : Text} {q : Bool} {before : Option Char} {b : Block}
  {bs : List Block} {α : Type} {f : Piece → Option α}

/-- The tags that a pass keeps in the text of a manifest. -/
def keptTags (source : Text) : List Tag := (Pass.run {} (Text.trim source)).lines.flatMap Line.tags

/-- What a pass writes for the text of a manifest is read as it stands. -/
def Readable (source : Text) : Prop := ∀ l ∈ (Pass.run {} (Text.trim source)).lines, l.Distinct .mdx

theorem padded_prose (source : Text) :
    Text.Padded (Text.splitLines (sanitize {} (Text.trim source))) (Text.splitLines (prose .mdx source)) := Text.padded_refl _

theorem tags_prose_of_clean (clean : Clean (found .mdx Piece.problem? none (Text.splitLines (prose .mdx source)))) :
    found .mdx Piece.tag? none (Text.splitLines (prose .mdx source)) = taggedAgain .mdx (keptTags source) ∧
      ((∀ u ∈ keptTags source, u.isLinkLike .mdx = false) → Readable source) := by
  apply tags_of_clean (padded_prose source)
  intro line member p here
  exact clean p (List.mem_flatMap_of_mem member here)

theorem prose_of_readable (readable : Readable source) :
    Clean (found .mdx Piece.problem? none (Text.splitLines (prose .mdx source))) ∧
      found .mdx Piece.tag? none (Text.splitLines (prose .mdx source)) = (keptTags source).map (Tag.normal .mdx) := by
  obtain ⟨literal, tags⟩ := literal_of_distinct (padded_prose source) readable
  refine ⟨?_, tags⟩
  intro p inside
  obtain ⟨line, member, here⟩ := List.mem_flatMap.mp inside
  rw [problems_of_literal (literal line member)] at here
  exact absurd here List.not_mem_nil

/-- Behind a front where nothing is wrong the prose is no quotation, and its tags are those that are kept and do not look like
autolinks. -/
theorem tags_behind_of_clean (front : Front u) (lead : Fence.open? (firstLine (prose .mdx source)) = none)
    (clean : Clean (found .mdx Piece.problem? none (Text.splitLines (u ++ prose .mdx source)))) :
    quotes (firstLine (prose .mdx source)) = false ∧
      found .mdx Piece.tag? none (Text.splitLines (u ++ prose .mdx source)) = taggedAgain .mdx (keptTags source) ∧
      ((∀ t ∈ keptTags source, t.isLinkLike .mdx = false) → Readable source) := by
  have unquoted := front.unquoted clean
  rw [front.found_of_unquoted silent_problem lead unquoted] at clean
  rw [front.found_of_unquoted silent_tag lead unquoted]
  exact ⟨unquoted, tags_prose_of_clean clean⟩

theorem found_behind_of_readable (front : Front u) (lead : Fence.open? (firstLine (prose .mdx source)) = none)
    (unquoted : quotes (firstLine (prose .mdx source)) = false) (readable : Readable source) :
    Clean (found .mdx Piece.problem? none (Text.splitLines (u ++ prose .mdx source))) ∧
      found .mdx Piece.tag? none (Text.splitLines (u ++ prose .mdx source)) = (keptTags source).map (Tag.normal .mdx) := by
  rw [front.found_of_unquoted silent_problem lead unquoted, front.found_of_unquoted silent_tag lead unquoted]
  exact prose_of_readable readable

/-- The text can stand within a line. -/
structure Inline (s : Text) : Prop where
  calm : Calm s
  line : Text.IsLine s

theorem bullet_eq (label link : Text) :
    bullet label link = "- **" ++ ('[' :: (label ++ (']' :: '(' :: (link ++ [')']))) ++ ("**" : Text)) := by
  unfold bullet
  simp only [String.reduceToList]
  simp only [List.append_assoc, List.cons_append, List.nil_append]

theorem not_isDataUrl_of_head (first : link.head? = some '.') (w : Text) : isDataUrl (link ++ w) = false := by
  cases link with
  | nil => cases first
  | cons c link =>
    obtain rfl := Option.some.inj first
    rfl

theorem readsFlat_bullet (named : Inline label) (closer : ']' ∉ label) (linked : Inline link) (first : link.head? = some '.') :
    ReadsFlat .mdx w q before (bullet label link) := by
  have stars : ∀ {q b}, ReadsFlat .mdx w q b ("**" : Text) := .ordinary (ordinary_of_all (by decide))
  have item : ∀ {r q b}, ReadsFlat .mdx r q b ("- **" : Text) := .ordinary (ordinary_of_all (by decide))
  have reference : ∀ {r q b}, ReadsFlat .mdx r q b ('[' :: (label ++ (']' :: '(' :: (link ++ [')'])))) :=
    readsFlat_link closer (not_isDataUrl_of_head first _) named.calm.readsFlat linked.calm.readsFlat
  have rest : ∀ {q b}, ReadsFlat .mdx w q b ('[' :: (label ++ (']' :: '(' :: (link ++ [')']))) ++ ("**" : Text)) := reference.append stars
  rw [bullet_eq]
  exact item.append rest

theorem isLine_bullet (named : Inline label) (linked : Inline link) : Text.IsLine (bullet label link) := by
  have first : '\n' ∉ label := named.line
  have second : '\n' ∉ link := linked.line
  rw [bullet_eq, Text.IsLine]
  simp [first, second]

theorem found_bullet (silent : Silent f) (named : Inline label) (closer : ']' ∉ label) (linked : Inline link)
    (first : link.head? = some '.') : found .mdx f none (Text.splitLines (bullet label link)) = [] :=
  found_of_flat silent (isLine_bullet named linked) (readsFlat_bullet named closer linked first)

theorem front_bullet (named : Inline label) (closer : ']' ∉ label) (linked : Inline link) (first : link.head? = some '.') :
    Front (bullet label link ++ (": " : Text)) := by
  constructor
  · intro newline
    rcases List.mem_append.mp newline with inside | inside
    · exact isLine_bullet named linked inside
    · revert inside
      decide
  · intro w
    exact Fence.open?_eq_none_of_head (c := '-') rfl (by decide)
  · intro w
    have colon : ∀ {q b}, ReadsFlat .mdx w q b (": " : Text) := .ordinary (ordinary_of_all (by decide))
    exact (readsFlat_bullet named closer linked first).append colon
  · rfl
  · rw [List.getLast?_append]
    rfl

namespace Block

/-- The block is read as the kind that it is of: no prose opens a fence behind what stands in front of it, every fence around
code opens, and names and paths of modules can stand within a line. -/
inductive Orderly (language : Text) : Block → Prop where
  | heading {depth : Nat} {source : Text} (lead : Fence.open? (firstLine (prose .mdx source)) = none) : Orderly language (.heading depth source)
  | passage {source : Text} : Orderly language (.passage source)
  | code {content : Text} (plain : '`' ∉ language) : Orderly language (.code content)
  | remark {r : Remark} : Orderly language (.remark r)
  | member {title description : Text} {source target : Path} (named : Inline (prose .mdx title)) (closer : ']' ∉ prose .mdx title)
      (linked : Inline (relativeLink source target))
      (lead : Text.allBlank description = false → Fence.open? (firstLine (prose .mdx description)) = none) :
      Orderly language (.member title source target description)

/-- The text of the block is read as it stands, and behind something else it does not begin with a quotation. -/
inductive Legible : Block → Prop where
  | heading {depth : Nat} {source : Text} (unquoted : quotes (firstLine (prose .mdx source)) = false) (readable : Readable source) :
      Legible (.heading depth source)
  | passage {source : Text} (readable : Readable source) : Legible (.passage source)
  | code {content : Text} : Legible (.code content)
  | remark {r : Remark} : Legible (.remark r)
  | member {title description : Text} {source target : Path}
      (shown : Text.allBlank description = false → quotes (firstLine (prose .mdx description)) = false ∧ Readable description) :
      Legible (.member title source target description)

def kept : Block → List Tag
  | heading _ source => keptTags source
  | passage source => keptTags source
  | code _ => []
  | remark _ => []
  | member _ _ _ description => if Text.allBlank description then [] else keptTags description

theorem found_code (f : Piece → Option α) (plain : '`' ∉ language) (content : Text) :
    found .mdx f none (Text.splitLines (Block.text language (.code content))) = [] := by
  rw [Block.text, found, Page.proseLines_block plain]
  rfl

theorem found_remark (silent : Silent f) (r : Remark) :
    found .mdx f none (Text.splitLines (Block.text language (.remark r))) = [] := by
  have ordinary : ∀ c ∈ r.text, isSpecial .mdx c = false := ordinary_of_all (by cases r <;> decide)
  have line : Text.IsLine r.text := by cases r <;> (unfold Text.IsLine; decide)
  exact found_of_flat silent line (.ordinary ordinary)

/-- In a block where nothing is wrong the tags are those that are kept and do not look like autolinks. -/
theorem Orderly.tags_of_clean (orderly : b.Orderly language)
    (clean : Clean (found .mdx Piece.problem? none (Text.splitLines (b.text language)))) :
    found .mdx Piece.tag? none (Text.splitLines (b.text language)) = taggedAgain .mdx b.kept ∧
      ((∀ t ∈ b.kept, t.isLinkLike .mdx = false) → b.Legible) := by
  cases orderly with
  | @heading depth source lead =>
    obtain ⟨unquoted, tags, readable⟩ := tags_behind_of_clean (front_mark depth) lead clean
    exact ⟨tags, fun plain => .heading unquoted (readable plain)⟩
  | passage =>
    obtain ⟨tags, readable⟩ := tags_prose_of_clean clean
    exact ⟨tags, fun plain => .passage (readable plain)⟩
  | code plain => exact ⟨found_code _ plain _, fun _ => .code⟩
  | remark => exact ⟨found_remark silent_tag _, fun _ => .remark⟩
  | @member title description source target named closer linked lead =>
    have first := head?_relativeLink source target
    rw [Block.text] at clean ⊢
    rw [kept]
    cases blank : Text.allBlank description with
    | true =>
      rw [if_pos rfl, if_pos rfl, List.append_nil]
      refine ⟨found_bullet silent_tag named closer linked first, fun _ => .member ?_⟩
      intro shown
      rw [blank] at shown
      cases shown
    | false =>
      rw [blank, if_neg Bool.false_ne_true, ← List.append_assoc] at clean
      rw [if_neg Bool.false_ne_true, if_neg Bool.false_ne_true, ← List.append_assoc]
      obtain ⟨unquoted, tags, readable⟩ := tags_behind_of_clean (front_bullet named closer linked first) (lead blank) clean
      exact ⟨tags, fun plain => .member fun _ => ⟨unquoted, readable plain⟩⟩

theorem Orderly.found_of_legible (orderly : b.Orderly language) (legible : b.Legible) :
    Clean (found .mdx Piece.problem? none (Text.splitLines (b.text language))) ∧
      found .mdx Piece.tag? none (Text.splitLines (b.text language)) = b.kept.map (Tag.normal .mdx) := by
  have nothing : Clean [] := List.forall_mem_nil _
  cases orderly with
  | @heading depth source lead =>
    cases legible with
    | heading unquoted readable => exact found_behind_of_readable (front_mark depth) lead unquoted readable
  | passage =>
    cases legible with
    | passage readable => exact prose_of_readable readable
  | code plain =>
    rw [found_code _ plain, found_code _ plain]
    exact ⟨nothing, rfl⟩
  | remark =>
    rw [found_remark silent_problem, found_remark silent_tag]
    exact ⟨nothing, rfl⟩
  | @member title description source target named closer linked lead =>
    have first := head?_relativeLink source target
    rw [Block.text, kept]
    cases blank : Text.allBlank description with
    | true =>
      rw [if_pos rfl, if_pos rfl, List.append_nil, found_bullet silent_problem named closer linked first,
        found_bullet silent_tag named closer linked first]
      exact ⟨nothing, rfl⟩
    | false =>
      cases legible with
      | member shown =>
        obtain ⟨unquoted, readable⟩ := shown blank
        rw [if_neg Bool.false_ne_true, if_neg Bool.false_ne_true, ← List.append_assoc]
        exact found_behind_of_readable (front_bullet named closer linked first) (lead blank) unquoted readable

theorem balanced_kept (bs : List Block) : Balanced (bs.flatMap kept) := by
  induction bs with
  | nil => exact .nil
  | cons b bs ih =>
    rw [List.flatMap_cons]
    refine Balanced.append ?_ ih
    cases b with
    | heading | passage => exact balanced_run {} _
    | code | remark => exact .nil
    | member title source target description =>
      rw [kept]
      split
      · exact .nil
      · exact balanced_run {} _

theorem wellFormed_kept {t : Tag} (member : t ∈ bs.flatMap kept) : t.WellFormed := by
  obtain ⟨b, -, inside⟩ := List.mem_flatMap.mp member
  cases b with
  | heading | passage => exact wellFormed_run _ inside
  | code | remark => cases inside
  | member title source target description =>
    rw [kept] at inside
    split at inside
    · cases inside
    · exact wellFormed_run _ inside

end Block

/-- The blocks of a page stay apart: each is read as the kind that it is of, and none leaves a fence open for the next. -/
structure Orderly (m : Manifest) (topic : Topic) : Prop where
  blocks : ∀ b ∈ topic.blocks m, b.Orderly m.language
  closed : ClosedBlocks (topic.texts m)

/-- The blocks of a page can be read as they stand, within the limit for lines. -/
structure Legible (m : Manifest) (topic : Topic) : Prop where
  blocks : ∀ b ∈ topic.blocks m, b.Legible
  fits : ∀ line ∈ proseLines none (Text.splitLines (Document.split (topic.page m).content).2),
    Piece.totalWidth .mdx (scanLine .mdx line) ≤ 2000

theorem found_page (silent : Silent f) (closed : ClosedBlocks (topic.texts m)) :
    found .mdx f none (Text.splitLines (Document.split (topic.page m).content).2) =
      (topic.blocks m).flatMap fun b => found .mdx f none (Text.splitLines (b.text m.language)) := by
  obtain ⟨header, body, content, same⟩ := exists_body m topic
  rw [content, Header.split_render_append, found_newline, same silent, Page.found_linesOf f closed, Topic.texts, List.flatMap_map]

/-- An orderly page is clear exactly if it is legible. -/
theorem clear_page_iff (orderly : Orderly m topic) :
    Clear {} (Text.splitLines (Document.split (topic.page m).content).2) ↔ Legible m topic := by
  rw [clear_iff, found_page silent_problem orderly.closed, found_page silent_tag orderly.closed]
  constructor
  · rintro ⟨fits, clean, balanced⟩
    have read : ∀ b ∈ topic.blocks m, _ := fun b member =>
      (orderly.blocks b member).tags_of_clean fun p here => clean p (List.mem_flatMap_of_mem member here)
    have tags : ((topic.blocks m).flatMap fun b => found .mdx Piece.tag? none (Text.splitLines (b.text m.language))) =
        taggedAgain .mdx ((topic.blocks m).flatMap Block.kept) := by
      rw [taggedAgain, List.filter_flatMap, List.map_flatMap]
      exact List.flatMap_congr fun b member => (read b member).1
    rw [tags] at balanced
    have distinct := distinct_of_balanced (fun t member link => opening_of_isLinkLike (Block.wellFormed_kept member) link)
      (Block.balanced_kept _) balanced
    refine ⟨fun b member => ?_, fits⟩
    exact (read b member).2 fun t inside => distinct t (List.mem_flatMap_of_mem member inside)
  · intro legible
    have read : ∀ b ∈ topic.blocks m, _ := fun b member => (orderly.blocks b member).found_of_legible (legible.blocks b member)
    have tags : ((topic.blocks m).flatMap fun b => found .mdx Piece.tag? none (Text.splitLines (b.text m.language))) =
        ((topic.blocks m).flatMap Block.kept).map (Tag.normal .mdx) := by
      rw [List.map_flatMap]
      exact List.flatMap_congr fun b member => (read b member).2
    refine ⟨legible.fits, ?_, ?_⟩
    · intro p inside
      obtain ⟨b, member, here⟩ := List.mem_flatMap.mp inside
      exact (read b member).1 p here
    · rw [tags]
      exact (Block.balanced_kept _).normal .mdx

/-- A manifest has one page for each of its topics, and nothing but an open fence is found on such a page exactly if it is
legible. Where its blocks do not stay apart, every line of the page that is prose must be tidy, whichever block it is in. -/
theorem diagnose_generated_clean_iff (m : Manifest) : generate .mdx m = (topics m).map (Topic.page m) ∧
    ∀ topic : Topic, (∀ f ∈ Document.diagnose {} (topic.page m).content, f.problem = .unclosedFence) ↔
      (Orderly m topic → Legible m topic) ∧
        (¬ Orderly m topic → Clear {} (Text.splitLines (Document.split (topic.page m).content).2)) := by
  refine ⟨generate_eq m, fun topic => ?_⟩
  rw [Document.clean_diagnose_iff, clean_run_iff]
  by_cases orderly : Orderly m topic
  · rw [clear_page_iff orderly]
    exact ⟨fun legible => ⟨fun _ => legible, fun other => absurd orderly other⟩, fun both => both.1 orderly⟩
  · exact ⟨fun clear => ⟨fun first => absurd first orderly, fun _ => clear⟩, fun both => both.2 orderly⟩

def markedText : Text := List.flatten [
  "language = \"a`\"\n",
  "[[page]]\npath = \"a.mdx\"\ntitle = \"> a\"\n",
  "[[page]]\npath = \"b.mdx\"\ntitle = \"```\\n\x7bb\x7d\"\n",
  "[[page]]\npath = \"c.mdx\"\ntitle = \"[c](data:a <https://c.com>\"\n",
  "[[module]]\npath = \"x\x7by\x7d.mdx\"\nname = \"d\"\naccess_path = \"d\"\ngroup = \"d\"\n",
  "[[index]]\npath = \"e.mdx\"\ntitle = \"E\"\ngroup = \"d\"\n"]

/-- Titles that begin like a quotation and like a fence, a title with an image in an open bracket, a path with braces and a
language with a backtick. -/
def marked : Manifest :=
  ⟨"a`", none,
    [⟨"a.mdx", "> a", none, [], []⟩, ⟨"b.mdx", "```\n\x7bb\x7d", none, [], []⟩, ⟨"c.mdx", "[c](data:a <https://c.com>", none, [], []⟩],
    [⟨"x\x7by\x7d.mdx", "d", none, [], "d", some ("d" : Text), none⟩], [⟨"e.mdx", "E", [], "d", none⟩]⟩

/-- A quotation and a fence behind the mark of a heading are prose, an autolink that is written as a link closes the bracket of an
image, code is prose where its fence does not open, and the path of a module is written as it is. -/
theorem generated_not_clean : Manifest.read markedText = .ok marked ∧
    (generate .mdx marked).map (fun page => (Document.diagnose {} page.content).map Finding.problem) =
      [[.bareAngleBracket], [.unescapedBrace], [.dataUrl], [.unclosedTag, .unclosedFence], [.unescapedBrace]] := by
  constructor <;> decide +kernel

end NotebookPages.Reference
