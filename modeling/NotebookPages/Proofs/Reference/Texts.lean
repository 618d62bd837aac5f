import NotebookPages.Proofs.Reference.Blocks

/-! What a reference page keeps of the texts that it is made of. Behind its header they stand in the order of the manifest, and blanks
at their ends aside nothing is lost, unless the page ends with a text that ends in three dashes: these are taken for the rule
behind an entry. -/

namespace NotebookPages

namespace Text

variable {texts : List Text} {t u v w : Text}

/-- The texts stand in the whole one behind the other. -/
def InOrder : List Text → Text → Prop
  | [], _ => True
  | t :: texts, whole => ∃ before after, whole = before ++ (t ++ after) ∧ InOrder texts after

theorem InOrder.behind (inOrder : InOrder texts w) (u : Text) : InOrder texts (u ++ w) := by
  cases texts with
  | nil => trivial
  | cons t texts =>
    obtain ⟨before, after, rfl, rest⟩ := inOrder
    exact ⟨u ++ before, after, (List.append_assoc ..).symm, rest⟩

theorem InOrder.before (inOrder : InOrder texts u) (w : Text) : InOrder texts (u ++ w) := by
  induction texts generalizing u with
  | nil => trivial
  | cons t texts ih =>
    obtain ⟨before, after, rfl, rest⟩ := inOrder
    exact ⟨before, after ++ w, by simp, ih rest⟩

theorem inOrder_append {others : List Text} : InOrder (texts ++ others) w ↔
    ∃ u v, w = u ++ v ∧ InOrder texts u ∧ InOrder others v := by
  induction texts generalizing w with
  | nil =>
    constructor
    · intro inOrder
      exact ⟨[], w, rfl, trivial, inOrder⟩
    · rintro ⟨u, v, rfl, -, inOrder⟩
      exact inOrder.behind u
  | cons t texts ih =>
    constructor
    · rintro ⟨before, after, rfl, rest⟩
      obtain ⟨u, v, rfl, first, last⟩ := ih.mp rest
      exact ⟨before ++ (t ++ u), v, by simp, ⟨before, u, rfl, first⟩, last⟩
    · rintro ⟨u, v, rfl, ⟨before, after, rfl, first⟩, last⟩
      exact ⟨before, after ++ v, by simp, ih.mpr ⟨after, v, rfl, first, last⟩⟩

theorem inOrder_of_empty (empty : ∀ t ∈ texts, t = []) (w : Text) : InOrder texts w := by
  induction texts with
  | nil => trivial
  | cons t texts ih =>
    obtain rfl := empty t List.mem_cons_self
    exact ⟨[], w, rfl, ih fun u inside => empty u (List.mem_cons_of_mem _ inside)⟩

theorem InOrder.isInfix (inOrder : InOrder texts w) : ∀ t ∈ texts, t <:+: w := by
  induction texts generalizing w with
  | nil => exact List.forall_mem_nil _
  | cons t texts ih =>
    obtain ⟨before, after, rfl, rest⟩ := inOrder
    refine List.forall_mem_cons.mpr ⟨⟨before, after, List.append_assoc ..⟩, fun u inside => ?_⟩
    exact (ih rest u inside).trans ⟨before ++ t, [], by simp⟩

/-- Texts that do not overlap hold no more characters of a kind than the whole. -/
theorem InOrder.countP_le (p : Char → Bool) (inOrder : InOrder texts w) : texts.flatten.countP p ≤ w.countP p := by
  induction texts generalizing w with
  | nil => exact Nat.zero_le _
  | cons t texts ih =>
    obtain ⟨before, after, rfl, rest⟩ := inOrder
    have later := ih rest
    rw [List.flatten_cons, List.countP_append, List.countP_append, List.countP_append]
    omega

end Text

namespace Reference

open Text (InOrder Blank)
open Markup (isTrailing)

variable {d : Dialect} {language : Text} {ts us : List Text} {t u v w : Text} {p : SymbolPage}

/-- A text that says something, as it is written. -/
def given (d : Dialect) (text : Text) : List Text := if Text.allBlank text then [] else [prose d text]

def Entry.texts (d : Dialect) (language : Text) (e : Entry) : List Text :=
  ("### " ++ prose d e.name) :: Fence.block language e.shownSignature :: given d e.description

def Section.texts (d : Dialect) (language : Text) (s : Section) : List Text :=
  ("## " ++ prose d s.heading) :: s.entries.flatMap (Entry.texts d language)

/-- The texts of a page in the order of its manifest: headings, passages and signatures. -/
def SymbolPage.texts (d : Dialect) (language : Text) (p : SymbolPage) : List Text :=
  ("# " ++ prose d p.title) :: (given d p.intro ++ p.sections.flatMap (Section.texts d language))

/-- The text that a page ends with unless it ends with an entry: the heading of a section without entries, or where there are no
sections the intro, or the title if nothing is left of the intro. -/
def SymbolPage.ending (d : Dialect) (p : SymbolPage) : Option Text :=
  match p.sections.getLast? with
  | some s => if s.entries.isEmpty then some ("## " ++ prose d s.heading) else none
  | none => some (if Text.allBlank (prose d p.intro) then "# " ++ prose d p.title else prose d p.intro)

/-- The whole consists of texts with a blank line after each, and of rules between them. -/
inductive Spaced : List Text → Text → Prop
  | nil : Spaced [] []
  | text {ts : List Text} {w : Text} (t : Text) (rest : Spaced ts w) : Spaced (t :: ts) (paragraph t ++ w)
  | rule {ts : List Text} {w : Text} (rest : Spaced ts w) : Spaced ts (paragraph "---" ++ w)

theorem Spaced.append (first : Spaced ts u) (second : Spaced us v) : Spaced (ts ++ us) (u ++ v) := by
  induction first with
  | nil => exact second
  | text t _ ih =>
    rw [List.append_assoc]
    exact .text t ih
  | rule _ ih =>
    rw [List.append_assoc]
    exact .rule ih

theorem spaced_singleton (t : Text) : Spaced [t] (paragraph t) := by
  have alone := Spaced.text t .nil
  rwa [List.append_nil] at alone

theorem spaced_given (d : Dialect) (t : Text) : Spaced (given d t) (proseUnlessBlank d t) := by
  unfold given proseUnlessBlank
  split
  · exact .nil
  · exact spaced_singleton _

theorem spaced_flatMap {α : Type} {f : α → List Text} {g : α → Text} (each : ∀ x, Spaced (f x) (g x)) (xs : List α) :
    Spaced (xs.flatMap f) (xs.flatMap g) := by
  induction xs with
  | nil => exact .nil
  | cons x xs ih =>
    rw [List.flatMap_cons, List.flatMap_cons]
    exact (each x).append ih

/-- An entry without the rule behind it. -/
def entryFront (d : Dialect) (language : Text) (e : Entry) : Text :=
  paragraph ("### " ++ prose d e.name) ++ (paragraph (Fence.block language e.shownSignature) ++ proseUnlessBlank d e.description)

theorem entryText_eq (d : Dialect) (language : Text) (e : Entry) : entryText d language e = entryFront d language e ++ paragraph "---" := by
  simp only [entryText, entryFront, List.append_assoc]

theorem spaced_entryFront (d : Dialect) (language : Text) (e : Entry) : Spaced (e.texts d language) (entryFront d language e) :=
  .text _ (.text _ (spaced_given d e.description))

theorem spaced_entry (d : Dialect) (language : Text) (e : Entry) : Spaced (e.texts d language) (entryText d language e) := by
  have whole := (spaced_entryFront d language e).append (.rule .nil)
  rwa [List.append_nil, List.append_nil, ← entryText_eq] at whole

theorem spaced_section (d : Dialect) (language : Text) (s : Section) : Spaced (s.texts d language) (sectionText d language s) :=
  .text _ (spaced_flatMap (spaced_entry d language) s.entries)

theorem Spaced.blank (spaced : Spaced ts w) (blank : Blank w) : ∀ t ∈ ts, Blank t := by
  induction spaced with
  | nil => exact List.forall_mem_nil _
  | @text ts w t rest ih =>
    refine List.forall_mem_cons.mpr ⟨?_, ih fun c inside => blank c (List.mem_append_right _ inside)⟩
    intro c inside
    exact blank c (List.mem_append_left _ (List.mem_append_left _ inside))
  | rule rest ih => exact ih fun c inside => blank c (List.mem_append_right _ inside)

theorem Spaced.nothing (spaced : Spaced ts w) (blank : Blank w) (whole : Text) : InOrder (ts.map Text.trimEnd) whole := by
  refine Text.inOrder_of_empty ?_ whole
  intro u inside
  obtain ⟨t, member, rfl⟩ := List.mem_map.mp inside
  exact Text.trimEnd_eq_nil_iff.mpr (spaced.blank blank t member)

/-- Trimmed at its end, each of the texts stands in the trimmed whole. -/
theorem Spaced.inOrder (spaced : Spaced ts w) : InOrder (ts.map Text.trimEnd) (Text.trimEnd w) := by
  induction spaced with
  | nil => trivial
  | @text ts w t rest ih =>
    obtain ⟨v, whole, blank⟩ := Text.trimEnd_split t
    by_cases last : Blank w
    · have after : Blank (v ++ ("\n\n" ++ w)) := blank.append (.append (Text.forall_mem_of_all (by decide)) last)
      have shape : paragraph t ++ w = Text.trimEnd t ++ (v ++ ("\n\n" ++ w)) := by
        rw [← List.append_assoc, ← whole, ← List.append_assoc]
        rfl
      refine ⟨[], [], ?_, rest.nothing last _⟩
      rw [shape, Text.trimEnd_of_blank after, Text.trimEnd_trimEnd, List.append_nil]
      rfl
    · have shape : paragraph t ++ Text.trimEnd w = [] ++ (Text.trimEnd t ++ ((v ++ ("\n\n" : Text)) ++ Text.trimEnd w)) := by
        rw [List.nil_append, ← List.append_assoc, ← List.append_assoc, ← whole]
        rfl
      rw [Text.trimEnd_append last]
      exact ⟨[], (v ++ ("\n\n" : Text)) ++ Text.trimEnd w, shape, ih.behind _⟩
  | @rule ts w rest ih =>
    by_cases last : Blank w
    · exact rest.nothing last _
    · rw [Text.trimEnd_append last]
      exact ih.behind _

/-- A kind of characters that neither blanks nor dashes are of is counted in the texts alone. -/
theorem Spaced.countP_eq {f : Char → Bool} (other : ∀ c, isTrailing c = true → f c = false) (spaced : Spaced ts w) :
    w.countP f = ts.flatten.countP f := by
  have none : ∀ t : Text, (∀ c ∈ t, isTrailing c = true) → t.countP f = 0 := by
    intro t trailing
    refine List.countP_eq_zero.mpr fun c inside => ?_
    rw [other c (trailing c inside)]
    exact Bool.false_ne_true
  have line : ("\n\n" : Text).countP f = 0 := none _ (Text.forall_mem_of_all (by decide))
  have rule : (paragraph "---").countP f = 0 := none _ (Text.forall_mem_of_all (by decide))
  induction spaced with
  | nil => rfl
  | text t rest ih => rw [List.countP_append, paragraph, List.countP_append, line, List.flatten_cons, List.countP_append, ih]; rfl
  | rule rest ih => rw [List.countP_append, rule, ih, Nat.zero_add]

/-! How a page is finished: blanks at its end are dropped, then dashes three at a time, and blanks again. -/

theorem dropRules_append {x : Text} (other : ∃ c ∈ t, c ≠ '-') : dropRules (t ++ x) = dropRules t ++ x := by
  fun_induction dropRules t with
  | case1 rest ih =>
    obtain ⟨c, inside, mark⟩ := other
    have later : c ∈ rest := by simpa [mark] using inside
    exact ih ⟨c, later, mark⟩
  | case2 t plain =>
    unfold dropRules
    split
    next rest shape =>
      -- three dashes in front of both belong to the first, as not all of it are dashes
      obtain ⟨c, inside, mark⟩ := other
      rcases t with _ | ⟨a, _ | ⟨b, _ | ⟨e, t⟩⟩⟩
      · cases inside
      · simp_all
      · simp_all
      · simp_all
    next => rfl

theorem finish_of_rule (front : Text) : finish ((front ++ ['\n']) ++ paragraph "---") = Text.line (Text.trimEnd (front ++ ['\n'])) := by
  have ruled : ¬ Blank (paragraph "---") := fun blank => absurd (blank '-' (by decide)) (by decide)
  have rule : Text.trimEnd (paragraph "---") = "---" := by decide
  have dropped : dropRules ('-' :: '-' :: '-' :: '\n' :: front.reverse) = '\n' :: front.reverse := by simp [dropRules]
  have shape : (front ++ ['\n'] ++ ("---" : Text)).reverse = '-' :: '-' :: '-' :: '\n' :: front.reverse := by simp
  rw [finish, Text.trimEnd_append ruled, rule, shape, dropped, List.reverse_cons, List.reverse_reverse]

theorem finish_of_plain (plain : ¬ ("---" : Text) <:+ Text.trimEnd t) : finish t = Text.line (Text.trimEnd t) := by
  have kept : dropRules (Text.trimEnd t).reverse = (Text.trimEnd t).reverse := by
    unfold dropRules
    split
    next rest shape =>
      refine absurd ⟨rest.reverse, ?_⟩ plain
      have whole := congrArg List.reverse shape
      rw [List.reverse_reverse] at whole
      rw [whole]
      simp
    next => rfl
  rw [finish, kept, List.reverse_reverse, Text.trimEnd_trimEnd]

theorem finish_of_ruled (ruled : ("---" : Text) <:+ Text.trimEnd t) : ∃ u dashes, Text.trimEnd t = u ++ dashes ∧
    3 ≤ dashes.length ∧ (∀ c ∈ dashes, c = '-') ∧ finish t = Text.line (Text.trimEnd u) := by
  obtain ⟨front, whole⟩ := ruled
  obtain ⟨dashes, shape, all⟩ := dropRules_split front.reverse
  have dropped : dropRules (Text.trimEnd t).reverse = dropRules front.reverse := by
    rw [← whole, List.reverse_append]
    rfl
  refine ⟨(dropRules front.reverse).reverse, dashes.reverse ++ "---", ?_, ?_, ?_, ?_⟩
  · rw [← List.append_assoc, ← List.reverse_append, ← shape, List.reverse_reverse]
    exact whole.symm
  · simp
  · intro c inside
    rcases List.mem_append.mp inside with inside | inside
    · exact all c (List.mem_reverse.mp inside)
    · simpa using inside
  · rw [finish, dropped]

theorem finish_append (mark : ∃ c ∈ t, isTrailing c = false) (u : Text) : finish (u ++ t) = u ++ finish t := by
  obtain ⟨c, inside, mark⟩ := mark
  obtain ⟨solid, other⟩ : Text.isBlank c = false ∧ c ≠ '-' := by simpa [isTrailing] using mark
  have some : ∀ {w : Text}, c ∈ w → ¬ Blank w := fun here blank => by simp [blank c here] at solid
  obtain ⟨v, whole, blank⟩ := Text.trimEnd_split t
  have first : c ∈ Text.trimEnd t := by
    rw [whole] at inside
    exact (List.mem_append.mp inside).resolve_right fun late => by simp [blank c late] at solid
  obtain ⟨dashes, shape, all⟩ := dropRules_split (Text.trimEnd t).reverse
  have second : c ∈ (dropRules (Text.trimEnd t).reverse).reverse := by
    have kept := List.mem_reverse.mpr first
    rw [shape] at kept
    exact List.mem_reverse.mpr ((List.mem_append.mp kept).resolve_left fun dash => other (all c dash))
  rw [finish, Text.trimEnd_append (some inside), List.reverse_append, dropRules_append ⟨c, List.mem_reverse.mpr first, other⟩,
    List.reverse_append, List.reverse_reverse, Text.trimEnd_append (some second), finish, Text.line, Text.line, List.append_assoc]

theorem countP_trimEnd {f : Char → Bool} (other : ∀ c, Text.isBlank c = true → f c = false) (t : Text) :
    (Text.trimEnd t).countP f = t.countP f := by
  obtain ⟨v, whole, blank⟩ := Text.trimEnd_split t
  have none : v.countP f = 0 := List.countP_eq_zero.mpr fun c inside => by simp [other c (blank c inside)]
  conv_rhs => rw [whole, List.countP_append, none, Nat.add_zero]

theorem countP_trimmed {f : Char → Bool} (other : ∀ c, Text.isBlank c = true → f c = false) (ts : List Text) :
    (ts.map Text.trimEnd).flatten.countP f = ts.flatten.countP f := by
  induction ts with
  | nil => rfl
  | cons t ts ih =>
    rw [List.map_cons, List.flatten_cons, List.flatten_cons, List.countP_append, List.countP_append, ih, countP_trimEnd other]

/-- Where characters other than blanks are lost the texts do not all stand in what is left. -/
theorem not_inOrder_of_fewer (fewer : u.countP (!Text.isBlank ·) < ts.flatten.countP (!Text.isBlank ·)) :
    ¬ InOrder (ts.map Text.trimEnd) (Text.line (Text.trimEnd u)) := by
  have other : ∀ c, Text.isBlank c = true → (!Text.isBlank c) = false := fun c blank => by rw [blank]; rfl
  intro inOrder
  have held := inOrder.countP_le (!Text.isBlank ·)
  have newline : (['\n'] : Text).countP (!Text.isBlank ·) = 0 := by decide
  rw [countP_trimmed other, Text.line, List.countP_append, countP_trimEnd other, newline] at held
  omega

/-- A heading that has lost its end stands nowhere behind the texts in front of it, whose marks are all in front. -/
theorem not_inOrder_of_shorter {front dashes : Text} (marks : front.countP (· == '#') = ts.flatten.countP (· == '#'))
    (heading : t.head? = some '#') (whole : Text.trimEnd t = u ++ dashes) (lost : 3 ≤ dashes.length) :
    ¬ InOrder ((ts ++ [t]).map Text.trimEnd) (front ++ Text.line (Text.trimEnd u)) := by
  have other : ∀ c, Text.isBlank c = true → (c == '#') = false := by
    intro c blank
    refine beq_eq_false_iff_ne.mpr ?_
    rintro rfl
    cases blank
  have start : (Text.trimEnd t).head? = some '#' := by
    obtain ⟨v, shape, blank⟩ := Text.trimEnd_split t
    cases first : Text.trimEnd t with
    | nil =>
      rw [first, List.nil_append] at shape
      have solid := blank '#' (shape ▸ List.mem_of_mem_head? heading)
      cases solid
    | cons c rest =>
      rw [first] at shape
      rw [shape] at heading
      exact heading
  rw [List.map_append, Text.inOrder_append]
  rintro ⟨x, y, shape, inOrder, ⟨before, after, rfl, -⟩⟩
  have held := inOrder.countP_le (· == '#')
  rw [countP_trimmed other, ← marks] at held
  have shorter : (Text.line (Text.trimEnd u)).length < (Text.trimEnd t).length := by
    obtain ⟨v, trimmed, -⟩ := Text.trimEnd_split u
    have length := congrArg List.length trimmed
    rw [whole, Text.line]
    simp only [List.length_append, List.length_cons, List.length_nil] at length ⊢
    omega
  rw [← List.append_assoc] at shape
  rcases List.append_eq_append_iff.mp shape with ⟨rest, -, last⟩ | ⟨rest, first, last⟩
  · have length := congrArg List.length last
    simp only [List.length_append] at length
    omega
  · cases rest with
    | nil =>
      rw [List.nil_append] at last
      have length := congrArg List.length last
      simp only [List.length_append] at length
      omega
    | cons c rest =>
      -- the heading would begin in front of its place, where there is no mark left
      have mark : c = '#' := by
        have same := congrArg List.head? last
        rw [List.head?_append, start] at same
        simpa using same.symm
      rw [first, mark, List.countP_append, List.countP_append] at held
      simp at held
      omega

/-- A page behind its header, before it is finished. -/
def SymbolPage.layout (d : Dialect) (language : Text) (p : SymbolPage) : Text :=
  paragraph ("# " ++ prose d p.title) ++ (proseUnlessBlank d p.intro ++ p.sections.flatMap (sectionText d language))

theorem spaced_layout (d : Dialect) (language : Text) (p : SymbolPage) : Spaced (p.texts d language) (p.layout d language) :=
  .text _ ((spaced_given d p.intro).append (spaced_flatMap (spaced_section d language) p.sections))

theorem content_symbolPage (d : Dialect) (m : Manifest) (p : SymbolPage) : ∃ header : Header,
    (symbolPage d m p).content = header.render ++ finish (p.layout d m.language) := by
  refine ⟨⟨p.title, if Text.allBlank p.intro then p.title else Notebook.cleanDescription descriptionLimit p.intro, p.position⟩, ?_⟩
  have mark : ∃ c ∈ p.layout d m.language, isTrailing c = false := ⟨'#', List.mem_cons_self, by decide⟩
  rw [← finish_append mark, SymbolPage.layout, symbolPage, opening]
  simp only [List.append_assoc]

theorem trimEnd_paragraph (t : Text) : Text.trimEnd (paragraph t) = Text.trimEnd t :=
  Text.trimEnd_of_blank (Text.forall_mem_of_all (by decide))

theorem countP_paragraph {f : Char → Bool} (other : ∀ c, Text.isBlank c = true → f c = false) (t : Text) :
    (paragraph t).countP f = t.countP f := by
  rw [← countP_trimEnd other, trimEnd_paragraph, countP_trimEnd other]

/-- A rule at the end of lines stands on the last of them. -/
theorem rule_suffix_iff (u v : Text) : ("---" : Text) <:+ u ++ '\n' :: v ↔ ("---" : Text) <:+ v := by
  constructor
  · intro ruled
    by_cases fits : ("---" : Text).length ≤ v.length
    · exact List.suffix_of_suffix_length_le ruled ⟨u ++ ['\n'], by simp⟩ fits
    · have longer : ('\n' :: v).length ≤ ("---" : Text).length := Nat.succ_le_of_lt (Nat.lt_of_not_le fits)
      have inside := (List.suffix_of_suffix_length_le ⟨u, rfl⟩ ruled longer).subset List.mem_cons_self
      exact absurd inside (by decide)
  · intro ruled
    exact ruled.trans ⟨u ++ ['\n'], by simp⟩

section Bare

variable (bare : p.sections = [])
include bare

theorem texts_of_bare : p.texts d language = ("# " ++ prose d p.title) :: given d p.intro := by
  rw [SymbolPage.texts, bare, List.flatMap_nil, List.append_nil]

theorem layout_of_bare : p.layout d language = paragraph ("# " ++ prose d p.title) ++ proseUnlessBlank d p.intro := by
  rw [SymbolPage.layout, bare, List.flatMap_nil, List.append_nil]

theorem ending_of_bare : p.ending d = some (if Text.allBlank (prose d p.intro) then "# " ++ prose d p.title else prose d p.intro) := by
  rw [SymbolPage.ending, bare]
  rfl

/-- Without sections a page ends as its intro or its title does. -/
theorem ruled_of_bare (language : Text) : ("---" : Text) <:+ Text.trimEnd (p.layout d language) ↔
    ∃ t, p.ending d = some t ∧ ("---" : Text) <:+ Text.trimEnd t := by
  rw [layout_of_bare bare, ending_of_bare bare]
  simp only [Option.some.injEq, exists_eq_left']
  by_cases none : Text.allBlank (prose d p.intro) = true
  · have blank : Blank (proseUnlessBlank d p.intro) := by
      unfold proseUnlessBlank
      split
      · exact List.forall_mem_nil _
      · exact Blank.append (List.all_eq_true.mp none) (Text.forall_mem_of_all (by decide))
    rw [if_pos none, Text.trimEnd_of_blank blank, trimEnd_paragraph]
  · have solid : ¬ Blank (paragraph (prose d p.intro)) := fun blank =>
      none (List.all_eq_true.mpr fun c inside => blank c (List.mem_append_left _ inside))
    have said : Text.allBlank p.intro = false := by
      rw [← Bool.not_eq_true]
      intro blank
      have nothing : prose d p.intro = [] := by
        rw [prose, Text.trim_eq_nil_of_blank (List.all_eq_true.mp blank)]
        cases d <;> rfl
      exact none (by rw [nothing]; rfl)
    have shape : paragraph ("# " ++ prose d p.title) ++ Text.trimEnd (prose d p.intro) =
        ("# " ++ prose d p.title ++ ['\n']) ++ '\n' :: Text.trimEnd (prose d p.intro) := by simp [paragraph]
    rw [if_neg none, proseUnlessBlank, said, if_neg Bool.false_ne_true, Text.trimEnd_append solid, trimEnd_paragraph, shape,
      rule_suffix_iff]

theorem inOrder_iff_of_bare : InOrder ((p.texts d language).map Text.trimEnd) (finish (p.layout d language)) ↔
    ¬ ∃ t, p.ending d = some t ∧ ("---" : Text) <:+ Text.trimEnd t := by
  refine Iff.trans ?_ (not_congr (ruled_of_bare bare language))
  constructor
  · intro inOrder ruled
    obtain ⟨u, dashes, whole, lost, all, finished⟩ := finish_of_ruled ruled
    rw [finished] at inOrder
    refine not_inOrder_of_fewer ?_ inOrder
    have other : ∀ c, Text.isBlank c = true → (!Text.isBlank c) = false := fun c blank => by rw [blank]; rfl
    have dashed : dashes.countP (!Text.isBlank ·) = dashes.length := by
      refine List.countP_eq_length.mpr fun c inside => ?_
      rw [all c inside]
      rfl
    have count : (p.layout d language).countP (!Text.isBlank ·) = u.countP (!Text.isBlank ·) + dashes.length := by
      rw [← countP_trimEnd other, whole, List.countP_append, dashed]
    have texts : (p.layout d language).countP (!Text.isBlank ·) = (p.texts d language).flatten.countP (!Text.isBlank ·) := by
      rw [layout_of_bare bare, texts_of_bare bare, given, proseUnlessBlank, List.flatten_cons, List.countP_append, List.countP_append,
        countP_paragraph other]
      split
      · rfl
      · rw [countP_paragraph other, List.flatten_singleton]
    omega
  · intro plain
    rw [finish_of_plain plain]
    exact (spaced_layout d language p).inOrder.before _

end Bare

/-- Behind texts that are all kept a heading is kept unless it ends in dashes. -/
theorem inOrder_heading_iff (spaced : Spaced ts w) (heading : t.head? = some '#') :
    InOrder ((ts ++ [t]).map Text.trimEnd) (finish (w ++ paragraph t)) ↔ ¬ ("---" : Text) <:+ Text.trimEnd t := by
  have mark : ∃ c ∈ paragraph t, isTrailing c = false :=
    ⟨'#', List.mem_append_left _ (List.mem_of_mem_head? heading), by decide⟩
  rw [finish_append mark, ← trimEnd_paragraph]
  constructor
  · intro inOrder ruled
    obtain ⟨u, dashes, whole, lost, -, finished⟩ := finish_of_ruled ruled
    rw [trimEnd_paragraph] at whole
    rw [finished] at inOrder
    have marks := spaced.countP_eq (f := (· == '#')) fun c trailing => by
      refine beq_eq_false_iff_ne.mpr ?_
      rintro rfl
      cases trailing
    exact not_inOrder_of_shorter marks heading whole lost inOrder
  · intro plain
    have kept := (spaced.append (spaced_singleton t)).inOrder
    have solid : ¬ Blank (paragraph t) := by
      intro blank
      obtain ⟨c, inside, other⟩ := mark
      simp [isTrailing, blank c inside] at other
    rw [Text.trimEnd_append solid] at kept
    rw [finish_of_plain plain, Text.line, ← List.append_assoc]
    exact kept.before _

/-- A page whose last section has no entries ends with the heading of that section. -/
theorem inOrder_iff_of_heading {front : List Section} {s : Section} (last : p.sections = front ++ [s]) (none : s.entries = []) :
    InOrder ((p.texts d language).map Text.trimEnd) (finish (p.layout d language)) ↔
      ¬ ∃ t, p.ending d = some t ∧ ("---" : Text) <:+ Text.trimEnd t := by
  have ending : p.ending d = some ("## " ++ prose d s.heading) := by
    rw [SymbolPage.ending, last, List.getLast?_concat]
    simp [none]
  have texts : p.texts d language = (("# " ++ prose d p.title) :: (given d p.intro ++ front.flatMap (Section.texts d language))) ++
      [("## " : Text) ++ prose d s.heading] := by
    rw [SymbolPage.texts, last, List.flatMap_append, List.flatMap_singleton, Section.texts, none]
    simp
  have layout : p.layout d language = (paragraph ("# " ++ prose d p.title) ++ (proseUnlessBlank d p.intro ++
      front.flatMap (sectionText d language))) ++ paragraph ("## " ++ prose d s.heading) := by
    rw [SymbolPage.layout, last, List.flatMap_append, List.flatMap_singleton, sectionText, none]
    simp
  rw [texts, layout, ending]
  simp only [Option.some.injEq, exists_eq_left']
  refine inOrder_heading_iff (.text _ ?_) rfl
  exact (spaced_given d p.intro).append (spaced_flatMap (spaced_section d language) front)

theorem exists_entryFront (d : Dialect) (language : Text) (e : Entry) : ∃ x, entryFront d language e = x ++ ['\n'] := by
  unfold entryFront proseUnlessBlank
  split
  · exact ⟨paragraph ("### " ++ prose d e.name) ++ (Fence.block language e.shownSignature ++ ['\n']), by simp [paragraph]⟩
  · exact ⟨paragraph ("### " ++ prose d e.name) ++ (paragraph (Fence.block language e.shownSignature) ++
      (prose d e.description ++ ['\n'])), by simp [paragraph]⟩

/-- Of a page that ends with an entry only the rule behind it is dropped. -/
theorem inOrder_of_entry {front : List Section} {s : Section} {entries : List Entry} {e : Entry} (last : p.sections = front ++ [s])
    (some : s.entries = entries ++ [e]) : InOrder ((p.texts d language).map Text.trimEnd) (finish (p.layout d language)) := by
  have texts : p.texts d language = ("# " ++ prose d p.title) :: (given d p.intro ++ (front.flatMap (Section.texts d language) ++
      (("## " ++ prose d s.heading) :: (entries.flatMap (Entry.texts d language) ++ e.texts d language)))) := by
    rw [SymbolPage.texts, last, List.flatMap_append, List.flatMap_singleton, Section.texts, some, List.flatMap_append,
      List.flatMap_singleton]
  have layout : p.layout d language = (paragraph ("# " ++ prose d p.title) ++ (proseUnlessBlank d p.intro ++
      (front.flatMap (sectionText d language) ++ (paragraph ("## " ++ prose d s.heading) ++
        (entries.flatMap (entryText d language) ++ entryFront d language e))))) ++ paragraph "---" := by
    rw [SymbolPage.layout, last, List.flatMap_append, List.flatMap_singleton, sectionText, some, List.flatMap_append,
      List.flatMap_singleton, entryText_eq]
    simp only [List.append_assoc]
  have spaced : Spaced (p.texts d language) (paragraph ("# " ++ prose d p.title) ++ (proseUnlessBlank d p.intro ++
      (front.flatMap (sectionText d language) ++ (paragraph ("## " ++ prose d s.heading) ++
        (entries.flatMap (entryText d language) ++ entryFront d language e))))) := by
    rw [texts]
    exact .text _ ((spaced_given d p.intro).append ((spaced_flatMap (spaced_section d language) front).append
      (.text _ ((spaced_flatMap (spaced_entry d language) entries).append (spaced_entryFront d language e)))))
  obtain ⟨x, ended⟩ := exists_entryFront d language e
  rw [ended] at spaced layout
  simp only [← List.append_assoc] at spaced layout
  rw [layout, finish_of_rule]
  exact spaced.inOrder.before _

/-- Behind the header of a page the sanitized title, intro, headings and names, the signatures and the sanitized descriptions stand
in the order of the manifest, each up to blanks at its end, exactly if the page ends with an entry or with a text that does not end
in three dashes. -/
theorem texts_inOrder_iff (d : Dialect) (m : Manifest) (p : SymbolPage) : ∃ (header : Header) (body : Text),
    (symbolPage d m p).content = header.render ++ body ∧
      (InOrder ((p.texts d m.language).map Text.trimEnd) body ↔
        ¬ ∃ t, p.ending d = some t ∧ ("---" : Text) <:+ Text.trimEnd t) := by
  obtain ⟨header, content⟩ := content_symbolPage d m p
  refine ⟨header, _, content, ?_⟩
  rcases List.eq_nil_or_concat' p.sections with bare | ⟨front, s, last⟩
  · exact inOrder_iff_of_bare bare
  · rcases List.eq_nil_or_concat' s.entries with none | ⟨entries, e, some⟩
    · exact inOrder_iff_of_heading last none
    · have unending : p.ending d = none := by
        rw [SymbolPage.ending, last, List.getLast?_concat]
        simp [some]
      refine iff_of_true (inOrder_of_entry last some) ?_
      rintro ⟨t, ending, -⟩
      rw [unending] at ending
      cases ending

def overviewText : Text := "[[page]]\npath = \"a.mdx\"\ntitle = \"T\"\nintro = \"Overview\\n---\"\n"

/-- A page that consists of an intro, which is a heading by the dashes under it. -/
def overview : Manifest := ⟨"python", none, [⟨"a.mdx", "T", none, "Overview\n---", []⟩], [], []⟩

/-- The dashes under the heading are lost. -/
theorem texts_not_inOrder : Manifest.read overviewText = .ok overview ∧ ∃ p ∈ overview.pages,
    p.texts .mdx overview.language = ["# T", "Overview\n---"] ∧
      ¬ InOrder ((p.texts .mdx overview.language).map Text.trimEnd) (symbolPage .mdx overview p).content := by
  refine ⟨by decide +kernel, _, List.mem_cons_self, by decide +kernel, ?_⟩
  intro inOrder
  have inside := inOrder.isInfix "Overview\n---" (by decide +kernel)
  exact absurd inside (by decide +kernel)

end Reference
end NotebookPages
