import NotebookPages.Proofs.Notebook.Titles

/-! Descriptions. Cleaning takes everything from a `<` to the next `>` for a tag, so it leaves a text whole, marks and blanks apart,
exactly if no `>` stands behind a `<`. A description can be shown if the fallback can, unless the metadata give one of which cleaning
leaves nothing. -/

namespace NotebookPages.Notebook

variable {n : Notebook} {rules : DescriptionRules} {t text line : Text} {limit : Nat} {breaks : Char → Prop}

theorem withoutTags_sublist (inside : Bool) (t : Text) : (withoutTags inside t).Sublist t := by
  induction t generalizing inside with
  | nil => exact List.Sublist.refl []
  | cons c t ih =>
    rw [withoutTags]
    split
    · exact (ih _).cons c
    · split
      · exact (ih true).cons c
      · exact (ih false).cons_cons c

theorem withoutTags_of_whole (whole : ¬ ['<', '>'].Sublist t) : withoutTags false t = t := by
  induction t with
  | nil => rfl
  | cons c t ih =>
    have open' : ¬ (c == '<' && t.contains '>') = true := by
      intro tagged
      obtain ⟨rfl, closed⟩ : c = '<' ∧ '>' ∈ t := by simpa using tagged
      exact whole ((List.singleton_sublist.mpr closed).cons_cons '<')
    rw [withoutTags, if_neg Bool.false_ne_true, if_neg open', ih fun later => whole (later.cons c)]

/-- With a `>` behind a `<` the first such `<` is lost. -/
theorem count_withoutTags_lt (tagged : ['<', '>'].Sublist t) : (withoutTags false t).count '<' < t.count '<' := by
  induction t with
  | nil => cases tagged
  | cons c t ih =>
    rw [withoutTags, if_neg Bool.false_ne_true]
    split
    next opened =>
      obtain ⟨rfl, -⟩ : c = '<' ∧ '>' ∈ t := by simpa using opened
      rw [List.count_cons_self]
      exact Nat.lt_succ_of_le ((withoutTags_sublist true t).count_le '<')
    next unopened =>
      have later : ['<', '>'].Sublist t := by
        cases tagged with
        | cons _ later => exact later
        | cons_cons _ closed => simp [List.singleton_sublist.mp closed] at unopened
      rw [List.count_cons, List.count_cons]
      exact Nat.add_lt_add_right (ih later) _

theorem count_filter_isMark {c : Char} (plain : isMark c = false) (t : Text) : (t.filter (!isMark ·)).count c = t.count c :=
  List.count_filter (by simpa using plain)

theorem length_cleanWords_le (t : Text) : (cleanWords t).length ≤ t.length :=
  calc (cleanWords t).length
    _ ≤ ((withoutTags false t).filter (!isMark ·)).length := Text.length_collapse_le _
    _ ≤ (withoutTags false t).length := List.length_filter_le ..
    _ ≤ t.length := (withoutTags_sublist false t).length_le

theorem count_cleanWords {c : Char} (plain : isMark c = false) (solid : Text.isBlank c = false) (t : Text) :
    (cleanWords t).count c = (withoutTags false t).count c := by
  rw [cleanWords, Text.count_collapse solid, count_filter_isMark plain]

/-- A text within the limit loses nothing but emphasis marks and blanks exactly if no `>` stands anywhere behind a `<`. -/
theorem cleanDescription_eq_iff (fits : t.length ≤ limit) :
    cleanDescription limit t = Text.collapse (t.filter (!isMark ·)) ↔ ¬ ['<', '>'].Sublist t := by
  rw [cleanDescription, Text.shorten_of_fits ((length_cleanWords_le t).trans fits)]
  constructor
  · intro same tagged
    have fewer := count_withoutTags_lt tagged
    have count := congrArg (List.count '<') same
    rw [count_cleanWords (by decide) (by decide), Text.count_collapse (by decide), count_filter_isMark (by decide)] at count
    omega
  · intro whole
    rw [cleanWords, withoutTags_of_whole whole]

theorem cleanDescription_eq_iff_arrow : ("a -> b\n\t< *c* <= `d_e`" : Text).length ≤ 22 ∧
    cleanDescription 22 "a -> b\n\t< *c* <= `d_e`" = "a -> b < c <= de" :=
  ⟨by decide, ((cleanDescription_eq_iff (by decide)).mpr (by decide)).trans (by decide)⟩

/-- No `<` begins a tag, a comment or a declaration. -/
def Untagged (t : Text) : Prop := t.IsChain fun a b => a = '<' → Text.isLetter b = false ∧ b ≠ '/' ∧ b ≠ '!'

instance (t : Text) : Decidable (Untagged t) := inferInstanceAs (Decidable (t.IsChain _))

/-- What stands between two comparisons is lost. -/
theorem cleanDescription_not_whole : Untagged "a < b and c > d" ∧ ("a < b and c > d" : Text).length ≤ 150 ∧
    cleanDescription 150 "a < b and c > d" = "a d" ∧
    Text.collapse (("a < b and c > d" : Text).filter (!isMark ·)) = "a < b and c > d" := by
  decide

/-- A text that can be shown in a line of limited length, whatever characters end a line. -/
structure Usable (breaks : Char → Prop) (limit : Nat) (t : Text) : Prop where
  solid : ¬ Text.Blank t
  oneLine : ∀ c ∈ t, ¬ breaks c
  short : t.length ≤ limit

theorem usable_shorten (blanks : ∀ c, breaks c → Text.isBlank c = true ∧ c ≠ ' ') (roomy : 3 ≤ limit) (solid : ¬ Text.Blank t) :
    Usable breaks limit (Text.shorten limit (Text.collapse t)) where
  solid := Text.not_blank_shorten (mt Text.blank_collapse_iff.mp solid) limit
  oneLine c inside newline := by
    obtain ⟨blank, other⟩ := blanks c newline
    rcases Text.mem_shorten inside with inside | rfl
    · exact other (Text.eq_space_of_mem_collapse inside blank)
    · exact absurd blank (by decide)
  short := Text.length_shorten_le roomy _

/-- Something remains when tags, emphasis marks and blanks are taken away. -/
def Describes (text : Text) : Prop := ∃ c ∈ withoutTags false text, Text.isBlank c = false ∧ isMark c = false

theorem describes_iff : Describes text ↔ ¬ Text.Blank ((withoutTags false text).filter (!isMark ·)) := by
  simp [Describes, Text.Blank, and_comm, and_left_comm]

theorem description_of_metadata (given : present? n.metadata.description = some text) :
    n.description rules = cleanDescription rules.maxLength text := by
  rw [description, given]

/-- A description in the metadata is cleaned, and nothing takes its place if nothing remains of it. -/
theorem usable_description_of_metadata_iff (blanks : ∀ c, breaks c → Text.isBlank c = true ∧ c ≠ ' ') (roomy : 3 ≤ rules.maxLength)
    (given : present? n.metadata.description = some text) :
    Usable breaks rules.maxLength (n.description rules) ↔ Describes text := by
  rw [description_of_metadata given, describes_iff]
  constructor
  · intro usable blank
    have empty : cleanWords text = [] := Text.collapse_eq_nil_iff.mpr blank
    rw [cleanDescription, empty] at usable
    exact usable.solid Text.blank_nil
  · exact usable_shorten blanks roomy

/-- Without a description in the metadata the first line that is long enough is taken, or the fallback. -/
theorem description_of_prose (silent : present? n.metadata.description = none) :
    n.description rules = rules.fallback ∨ ∃ line, rules.minLength < (cleanWords line).length ∧
      n.description rules = Text.shorten rules.maxLength (cleanWords line) := by
  rw [description, silent]
  simp only
  split
  next found =>
    obtain ⟨line, -, rfl⟩ := List.mem_map.mp (List.mem_of_find?_eq_some found)
    exact Or.inr ⟨line, by simpa using List.find?_some found, rfl⟩
  next => exact Or.inl rfl

theorem usable_description_of_prose (blanks : ∀ c, breaks c → Text.isBlank c = true ∧ c ≠ ' ') (roomy : 3 ≤ rules.maxLength)
    (fallback : Usable breaks rules.maxLength rules.fallback) (silent : present? n.metadata.description = none) :
    Usable breaks rules.maxLength (n.description rules) := by
  rcases description_of_prose silent with same | ⟨line, long, same⟩
  · exact same ▸ fallback
  · have some : cleanWords line ≠ [] := List.ne_nil_of_length_pos (Nat.zero_lt_of_lt long)
    rw [same]
    exact usable_shorten blanks roomy (mt Text.collapse_eq_nil_iff.mpr some)

/-- With a usable fallback, and a limit that leaves room for an ellipsis, the description is usable exactly if the metadata give none
that is not blank but of which cleaning leaves nothing. -/
theorem usable_description_iff (blanks : ∀ c, breaks c → Text.isBlank c = true ∧ c ≠ ' ') (roomy : 3 ≤ rules.maxLength)
    (fallback : Usable breaks rules.maxLength rules.fallback) (n : Notebook) : Usable breaks rules.maxLength (n.description rules) ↔
      ∀ text, n.metadata.description = some text → ¬ Text.Blank text → Describes text := by
  cases given : present? n.metadata.description with
  | none =>
    refine iff_of_true (usable_description_of_prose blanks roomy fallback given) fun text same solid => ?_
    exact absurd (present?_eq_none_iff.mp given text same) solid
  | some text =>
    obtain ⟨same, solid⟩ := present?_eq_some_iff.mp given
    rw [usable_description_of_metadata_iff blanks roomy given, same]
    constructor
    · intro describes other named _
      exact Option.some.inj named ▸ describes
    · intro all
      exact all text rfl solid

/-- A description in the metadata, and rules under which it is too long. -/
def guide : Notebook := ⟨4, 5, { description := some "<i>A</i>\n_guide_ to *it*" }, []⟩

def briefRules : DescriptionRules := ⟨0, 8, "Page"⟩

theorem usable_description_iff_guide : (∀ c, c = '\n' → Text.isBlank c = true ∧ c ≠ ' ') ∧ 3 ≤ briefRules.maxLength ∧
    Usable (· = '\n') briefRules.maxLength briefRules.fallback ∧ Usable (· = '\n') briefRules.maxLength (guide.description briefRules) ∧
    guide.description briefRules = "A gui..." := by
  have blanks : ∀ c, c = '\n' → Text.isBlank c = true ∧ c ≠ ' ' := by
    rintro c rfl
    decide
  have fallback : Usable (· = '\n') briefRules.maxLength briefRules.fallback :=
    ⟨fun blank => absurd (blank 'P' (by decide)) (by decide), Text.forall_mem_of_all (by decide), by decide⟩
  refine ⟨blanks, by decide, fallback, ?_, by decide⟩
  refine (usable_description_iff blanks (by decide) fallback guide).mpr fun text given _ => ?_
  obtain rfl := Option.some.inj given
  exact ⟨'g', by decide, by decide, by decide⟩

/-- Emphasis marks alone are no blanks, but nothing remains of them. -/
theorem description_not_usable : Usable (· = '\n') 150 ({} : DescriptionRules).fallback ∧
    Notebook.description {} ⟨4, 5, { description := some "**" }, []⟩ = [] ∧
    ¬ Usable (· = '\n') 150 (Notebook.description {} ⟨4, 5, { description := some "**" }, []⟩) := by
  have empty : Notebook.description {} ⟨4, 5, { description := some "**" }, []⟩ = [] := by decide
  refine ⟨⟨fun blank => absurd (blank 'J' (by decide)) (by decide), Text.forall_mem_of_all (by decide), by decide⟩, empty, ?_⟩
  intro usable
  rw [empty] at usable
  exact usable.solid Text.blank_nil

end NotebookPages.Notebook
