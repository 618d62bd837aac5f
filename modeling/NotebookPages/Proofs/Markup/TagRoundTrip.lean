import NotebookPages.Proofs.Markup.Spelling

/-! Written tags are read back. Writing fixes the blanks and the quotes of a tag and leaves out what
the dialect does not take, so reading gives the normal form of the tag that was written. -/

namespace NotebookPages

namespace Attribute

def renderValue (a : Attribute) : Text :=
  match a.value with
  | none => []
  | some (quote, value) => '=' :: quote :: value ++ [quote]

theorem render_eq (a : Attribute) : a.render = ' ' :: (a.name ++ a.renderValue) := by
  unfold render renderValue
  cases a.value <;> rfl

/-- Nothing after the attribute can be taken for a part of it. -/
def Ends (r : Text) : Prop :=
  (∀ c, r.head? = some c → isNameChar c = false) ∧ (r.dropWhile Text.isMarkupBlank).head? ≠ some '='

theorem readValue?_render {q : Char} {v : Text} (quote : IsQuote q) (inside : q ∉ v) (r : Text) :
    readValue? (q :: (v ++ q :: r)) = some ((q, v), r) := by
  have blank : Text.isMarkupBlank q = false := by rcases quote with rfl | rfl <;> decide
  have quoted : (q == '"' || q == '\'') = true := by rcases quote with rfl | rfl <;> decide
  have others : ∀ c ∈ v, (c != q) = true := by
    intro c member
    simpa using fun same : c = q => inside (same ▸ member)
  have stop : ∀ c, (q :: r).head? = some c → (c != q) = false := by simp
  unfold readValue?
  simp [blank, quoted, Text.takeWhile_stop others stop, Text.dropWhile_stop others stop]

theorem read?_render {a : Attribute} (valid : a.WellFormed) {r : Text} (ends : Ends r) :
    read? (a.name ++ (a.renderValue ++ r)) = some (a, r) := by
  have stop : ∀ c, (a.renderValue ++ r).head? = some c → isNameChar c = false := by
    intro c first
    unfold renderValue at first
    split at first
    · exact ends.1 c (by simpa using first)
    · obtain rfl : '=' = c := by simpa using first
      decide
  have some : a.name.isEmpty = false := by simpa using valid.some
  unfold read?
  rw [Text.takeWhile_stop valid.chars stop, Text.dropWhile_stop valid.chars stop]
  obtain ⟨name, value⟩ := a
  cases value with
  | none =>
    simp only [renderValue, List.nil_append, some, Bool.false_eq_true, if_false]
    split
    next after equals => simp [Ends, equals] at ends
    next => rfl
  | some value =>
    obtain ⟨q, v⟩ := value
    obtain ⟨quote, inside⟩ := valid.value q v rfl
    have equals : Text.isMarkupBlank '=' = false := by decide
    simp [renderValue, some, equals, readValue?_render quote inside]

end Attribute

namespace Tag

structure WellFormed (t : Tag) : Prop where
  letter : t.name.head?.any Text.isLetter = true
  chars : ∀ c ∈ t.name, isNameChar c = true
  attributes : ∀ a ∈ t.attributes, a.WellFormed
  kind : t.kind = kindOf (t.kind == .closing) t.slash t.name
  closing : t.kind = .closing → t.attributes = [] ∧ t.slash = false

theorem kindOf_eq_closing {closing slash : Bool} {name : Text} :
    kindOf closing slash name = .closing ↔ closing = true := by
  cases closing <;> simp [kindOf]
  split <;> simp

theorem TailSpelling.wellFormed {closing slash : Bool} {tail : Text} {as : List Attribute}
    (spelled : TailSpelling closing tail as slash) :
    (∀ a ∈ as, a.WellFormed) ∧ (closing = true → as = [] ∧ slash = false) := by
  induction spelled with
  | stop => simp
  | slash _ opening => simp [opening]
  | more _ _ opening first _ ih =>
    refine ⟨fun a member => ?_, by simp [opening]⟩
    rcases List.mem_cons.mp member with rfl | member
    · exact first.wellFormed
    · exact ih.1 a member

theorem Spelling.wellFormed {source : Text} {t : Tag} (spelled : Spelling source t) : t.WellFormed := by
  cases spelled with
  | @tag closing slash name _ attributes letter chars rest =>
    have valid := rest.wellFormed
    refine ⟨letter, chars, valid.1, ?_, fun kind => valid.2 (kindOf_eq_closing.mp kind)⟩
    cases closing
    · have other : kindOf false slash name ≠ .closing := by simp [kindOf_eq_closing]
      have : (kindOf false slash name == .closing) = false := by simpa using other
      simp [this]
    · rfl

def writtenSlash (d : Dialect) (t : Tag) : Bool := t.kind == .selfClosing && (d == .mdx || t.slash)

/-- The tag that is read where `t` was written. -/
def normal (d : Dialect) (t : Tag) : Tag :=
  ⟨t.name, t.kind, t.attributes.filter (keeps d), t.writtenSlash d⟩

def ending (d : Dialect) (t : Tag) : Text := if t.writtenSlash d then [' ', '/', '>'] else ['>']

theorem render_eq {d : Dialect} {t : Tag} (valid : t.WellFormed) :
    t.render d = '<' :: ((if t.kind = .closing then ['/'] else []) ++
      (t.name ++ ((t.normal d).attributes.flatMap Attribute.render ++ t.ending d))) := by
  unfold render ending writtenSlash normal
  split
  next kind => simp [kind, (valid.closing kind).1]
  next kind =>
    cases self : t.kind with
    | closing => exact absurd self kind
    | opening => simp
    | selfClosing => cases d <;> cases t.slash <;> simp

theorem ends_tail {as : List Attribute} {tail r : Text} (tail_eq : tail = [' ', '/', '>'] ∨ tail = ['>'])
    (valid : ∀ a ∈ as, a.WellFormed) : Attribute.Ends (as.flatMap Attribute.render ++ (tail ++ r)) := by
  cases as with
  | nil =>
    rcases tail_eq with rfl | rfl
    · exact ⟨by simp; decide, by simp [Text.isMarkupBlank]⟩
    · exact ⟨by simp; decide, by simp [Text.isMarkupBlank]⟩
  | cons a as =>
    obtain ⟨c, name, shape⟩ := List.exists_cons_of_ne_nil (valid a (by simp)).some
    have first : Attribute.isNameChar c = true := (valid a (by simp)).chars c (by simp [shape])
    have plain : Text.isMarkupBlank c = false := by
      cases blank : Text.isMarkupBlank c with
      | false => rfl
      | true =>
        simp only [Text.isMarkupBlank, Bool.or_eq_true, beq_iff_eq] at blank
        rcases blank with (((rfl | rfl) | rfl) | rfl) | rfl <;> exact absurd first (by decide)
    have other : c ≠ '=' := by
      rintro rfl
      exact absurd first (by decide)
    have space : Text.isMarkupBlank ' ' = true := by decide
    refine ⟨?_, ?_⟩
    · simp only [List.flatMap_cons, Attribute.render_eq, List.cons_append, List.head?_cons, Option.some.injEq]
      rintro d rfl
      decide
    · simpa [Attribute.render_eq, shape, space, plain] using other

inductive Ending : Text → Bool → Prop where
  | plain : Ending ['>'] false
  | slash : Ending [' ', '/', '>'] true

theorem ending_valid (d : Dialect) (t : Tag) : Ending (t.ending d) (t.writtenSlash d) := by
  unfold ending
  split
  next slash => rw [slash]; exact .slash
  next plain => rw [Bool.not_eq_true] at plain; rw [plain]; exact .plain

theorem Ending.shape {tail : Text} {slash : Bool} (ends : Ending tail slash) :
    tail = [' ', '/', '>'] ∨ tail = ['>'] := by
  cases ends <;> simp

theorem readTail?_render {as : List Attribute} (valid : ∀ a ∈ as, a.WellFormed) {tail : Text} {slash : Bool}
    (ends : Ending tail slash) (r : Text) {fuel : Nat} (enough : as.length < fuel) :
    readTail? false fuel (as.flatMap Attribute.render ++ (tail ++ r)) = some (as, slash, r) := by
  have space : Text.isMarkupBlank ' ' = true := by decide
  induction as generalizing fuel with
  | nil =>
    obtain ⟨fuel, rfl⟩ := Nat.exists_eq_succ_of_ne_zero (Nat.ne_of_gt enough)
    have plain : Text.isMarkupBlank '>' = false ∧ Text.isMarkupBlank '/' = false := by decide
    cases ends <;> simp [readTail?, plain, space]
  | cons a as ih =>
    obtain ⟨fuel, rfl⟩ := Nat.exists_eq_succ_of_ne_zero (Nat.ne_of_gt (Nat.zero_lt_of_lt enough))
    have first := valid a (by simp)
    have others : ∀ b ∈ as, b.WellFormed := fun b member => valid b (List.mem_cons_of_mem _ member)
    have read := Attribute.read?_render first (ends_tail (r := r) ends.shape others)
    obtain ⟨c, name, shape⟩ := List.exists_cons_of_ne_nil first.some
    have char : Attribute.isNameChar c = true := first.chars c (by simp [shape])
    have notEnd : c ≠ '>' ∧ c ≠ '/' := by constructor <;> rintro rfl <;> exact absurd char (by decide)
    have solid : Text.isMarkupBlank c = false := by
      cases blank : Text.isMarkupBlank c with
      | false => rfl
      | true =>
        simp only [Text.isMarkupBlank, Bool.or_eq_true, beq_iff_eq] at blank
        rcases blank with (((rfl | rfl) | rfl) | rfl) | rfl <;> exact absurd char (by decide)
    have later := @ih others fuel (by simpa using enough)
    rw [shape] at read
    simp only [List.cons_append] at read
    simp [readTail?, Attribute.render_eq, shape, space, solid, notEnd, read, later]

private theorem length_le_render (as : List Attribute) : as.length ≤ (as.flatMap Attribute.render).length := by
  induction as with
  | nil => simp
  | cons a as ih =>
    rw [List.flatMap_cons, Attribute.render_eq, List.length_append, List.length_cons, List.length_cons]
    omega

theorem kindOf_writtenSlash {t : Tag} (valid : t.WellFormed) (opens : t.kind ≠ .closing) (d : Dialect) :
    kindOf false (t.writtenSlash d) t.name = t.kind := by
  have given := valid.kind
  have other : (t.kind == .closing) = false := by simpa using opens
  rw [other] at given
  unfold kindOf at given ⊢
  unfold writtenSlash
  split at given
  · contradiction
  · split at given
    next self => cases d <;> cases slash : t.slash <;> simp_all
    next plain =>
      simp only [Bool.or_eq_true, not_or, Bool.not_eq_true] at plain
      simp [plain.2, given]

theorem nameEnds_render (t : Tag) (d : Dialect) (r : Text) :
    ∀ e, ((t.normal d).attributes.flatMap Attribute.render ++ (t.ending d ++ r)).head? = some e → isNameChar e = false := by
  intro e first
  cases as : (t.normal d).attributes with
  | nil =>
    rcases (ending_valid d t).shape with ends | ends
    all_goals
      rw [as, ends] at first
      simp only [List.flatMap_nil, List.nil_append, List.cons_append, List.head?_cons, Option.some.injEq] at first
      subst first
      decide
  | cons a as' =>
    rw [as] at first
    simp only [List.flatMap_cons, Attribute.render_eq, List.cons_append, List.head?_cons, Option.some.injEq] at first
    subst first
    decide

theorem readNamed?_render {t : Tag} (valid : t.WellFormed) {d : Dialect} {r : Text} {closing : Bool}
    (tail : readTail? closing ((t.name ++ ((t.normal d).attributes.flatMap Attribute.render ++ (t.ending d ++ r))).length + 1)
      ((t.normal d).attributes.flatMap Attribute.render ++ (t.ending d ++ r)) = some ((t.normal d).attributes, t.writtenSlash d, r)) :
    readNamed? closing (t.name ++ ((t.normal d).attributes.flatMap Attribute.render ++ (t.ending d ++ r))) =
      some (⟨t.name, kindOf closing (t.writtenSlash d) t.name, (t.normal d).attributes, t.writtenSlash d⟩, r) := by
  have letter : ∀ rest : Text, (t.name ++ rest).head?.any Text.isLetter = true := by
    intro rest
    have letter := valid.letter
    cases name : t.name with
    | nil => simp [name] at letter
    | cons c x => simpa [name] using letter
  have stop := nameEnds_render t d r
  unfold readNamed?
  rw [Text.takeWhile_stop valid.chars stop, Text.dropWhile_stop valid.chars stop, tail, if_pos (letter _)]
  rfl

/-- A written tag is read as the tag that it was written for. -/
theorem read?_render {t : Tag} (valid : t.WellFormed) (d : Dialect) (r : Text) :
    read? (t.render d ++ r) = some (t.normal d, r) := by
  rw [render_eq valid]
  cases kind : t.kind with
  | closing =>
    have none := valid.closing kind
    have plain : t.writtenSlash d = false := by simp [writtenSlash, kind]
    have tail : t.ending d = ['>'] := by simp [ending, plain]
    have no : (t.normal d).attributes = [] := by simp [normal, none.1]
    have notBlank : Text.isMarkupBlank '>' = false := by decide
    have whole := @readNamed?_render _ valid d r true (by simp [no, tail, readTail?, notBlank, plain])
    rw [show t.normal d = ⟨t.name, .closing, (t.normal d).attributes, t.writtenSlash d⟩ by simp [normal, kind]]
    simpa [read?, kindOf] using whole
  | opening | selfClosing =>
    have kept : ∀ a ∈ (t.normal d).attributes, a.WellFormed := fun a member => valid.attributes a (List.mem_filter.mp member).1
    have same := kindOf_writtenSlash valid (by simp [kind]) d
    have enough : (t.normal d).attributes.length < (t.name ++ ((t.normal d).attributes.flatMap Attribute.render ++
        (t.ending d ++ r))).length + 1 := by
      have := length_le_render (t.normal d).attributes
      rw [List.length_append, List.length_append]
      omega
    have whole := readNamed?_render valid (readTail?_render kept (ending_valid d t) r enough)
    obtain ⟨c, name, shape⟩ : ∃ c name, t.name = c :: name := by
      cases same : t.name with
      | nil => simpa [same] using valid.letter
      | cons c name => exact ⟨c, name, rfl⟩
    have other : c ≠ '/' := by
      rintro rfl
      exact absurd valid.letter (by simp [shape]; decide)
    rw [show t.normal d = ⟨t.name, t.kind, (t.normal d).attributes, t.writtenSlash d⟩ by simp [normal], ← same]
    simp only [shape, List.cons_append] at whole ⊢
    simpa [read?, other] using whole

end Tag
end NotebookPages
