import NotebookPages.Proofs.Markup.Backticks
import NotebookPages.Proofs.Markup.TagRoundTrip

/-! Writing a tag adds nothing to its source but blanks, quotes, equals signs and the marks at its ends. In
particular it holds no run of backticks that the source does not hold. -/

namespace NotebookPages

open Markup

def isTagMark (c : Char) : Bool :=
  c == ' ' || c == '=' || c == '"' || c == '\'' || c == '/' || c == '>'

theorem isTagMark_of_isQuote {q : Char} (quote : Attribute.IsQuote q) : isTagMark q = true := by
  rcases quote with rfl | rfl <;> decide

theorem isBacktick_of_isTagMark {c : Char} (mark : isTagMark c = true) : isBacktick c = false := by
  cases tick : isBacktick c with
  | false => rfl
  | true =>
    obtain rfl : c = '`' := by simpa [isBacktick] using tick
    exact absurd mark (by decide)

theorem not_isBacktick {p : Char → Bool} (other : p '`' = false) {c : Char} (here : p c = true) : isBacktick c = false := by
  cases tick : isBacktick c with
  | false => rfl
  | true =>
    obtain rfl : c = '`' := by simpa [isBacktick] using tick
    exact absurd here (by simp [other])

theorem endsUnticked_of_plain {a : Text} (plain : ∀ c ∈ a, isBacktick c = false) : EndsUnticked a :=
  fun c last => plain c (List.mem_of_getLast? last)

namespace Attribute

variable {source r : Text} {a : Attribute} {n : Nat}

def valueText (a : Attribute) : Text := (a.value.map Prod.snd).getD []

theorem Spelling.free (spelled : Spelling source a) (positive : 0 < n) (free : Free n (source ++ r)) :
    Free n a.valueText ∧ Free n r := by
  have named : ∀ {name : Text}, (∀ c ∈ name, isNameChar c = true) → ∀ c ∈ name, isBacktick c = false :=
    fun chars c inside => not_isBacktick (by decide) (chars c inside)
  have blank : ∀ {g : Text}, Gap g → ∀ c ∈ g, isBacktick c = false :=
    fun gap c inside => not_isBacktick (by decide) (gap c inside)
  have equals : isBacktick '=' = false := by decide
  have skip : ∀ {front back : Text}, (∀ c ∈ front, isBacktick c = false) → Free n (front ++ back) → Free n back :=
    fun plain whole => ((free_append_iff positive (endsUnticked_of_plain plain)).mp whole).2
  cases spelled with
  | alone some chars => exact ⟨free_of_plain positive (by simp [valueText]), skip (named chars) free⟩
  | @quoted name g h v q some chars before after quote inside =>
    have tick := isBacktick_of_isTagMark (isTagMark_of_isQuote quote)
    simp only [List.append_assoc, List.cons_append, List.nil_append] at free
    have opened := skip (blank before) (skip (named chars) free)
    have value := skip (blank after) ((free_cons_iff positive equals).mp opened)
    have closed := (free_append_unticked positive (unticked_cons tick)).mp ((free_cons_iff positive tick).mp value)
    exact ⟨closed.1, (free_cons_iff positive tick).mp closed.2⟩
  | @bare name g h v some chars before after plain =>
    have ticks : ∀ c ∈ v, isBacktick c = false := fun c inside => by
      cases tick : isBacktick c with
      | false => rfl
      | true =>
        obtain rfl : c = '`' := by simpa [isBacktick] using tick
        exact absurd (plain _ inside).2 (by decide)
    simp only [List.append_assoc, List.cons_append] at free
    have opened := skip (blank before) (skip (named chars) free)
    have value := skip (blank after) ((free_cons_iff positive equals).mp opened)
    exact ⟨free_of_plain positive ticks, skip ticks value⟩

theorem WellFormed.free_render (valid : a.WellFormed) (positive : 0 < n) (value : Free n a.valueText) :
    Free n a.render ∧ EndsUnticked a.render := by
  have plain : ∀ c ∈ ' ' :: a.name, isBacktick c = false := by
    intro c inside
    rcases List.mem_cons.mp inside with rfl | inside
    · decide
    · exact not_isBacktick (by decide) (valid.chars c inside)
  have front : ∀ s, Free n (' ' :: (a.name ++ s)) ↔ Free n s := by
    intro s
    have := free_append_iff (a := ' ' :: a.name) (s := s) positive (endsUnticked_of_plain plain)
    simpa [free_of_plain positive plain] using this
  rw [render_eq]
  unfold renderValue
  split
  next => exact ⟨by simpa using free_of_plain positive plain, by simpa using endsUnticked_of_plain plain⟩
  next q v here =>
    have tick := isBacktick_of_isTagMark (isTagMark_of_isQuote (valid.value q v here).1)
    have text : a.valueText = v := by simp [valueText, here]
    rw [text] at value
    refine ⟨(front _).mpr ?_, fun c last => ?_⟩
    · rw [List.cons_append, List.cons_append, free_cons_iff positive (by decide), free_cons_iff positive tick,
        free_append_unticked positive (unticked_cons tick)]
      exact ⟨value, free_of_plain positive (by simpa using tick)⟩
    · obtain rfl : q = c := by
        have shape : ' ' :: (a.name ++ ('=' :: q :: v ++ [q])) = (' ' :: (a.name ++ ('=' :: q :: v))) ++ [q] := by simp
        rw [shape, List.getLast?_append] at last
        simpa using last
      exact tick

theorem Spelling.count_render_le (spelled : Spelling source a) {x : Char} (other : isTagMark x = false) :
    a.render.count x ≤ source.count x := by
  have space : ' ' ≠ x := by
    rintro rfl
    exact absurd other (by decide)
  have quote : '"' ≠ x := by
    rintro rfl
    exact absurd other (by decide)
  rw [render_eq]
  cases spelled with
  | alone => simp [renderValue, space]
  | @quoted name g h v q some chars before after isQuote inside =>
    simp only [renderValue, List.count_append, List.count_cons, List.count_nil]
    simp only [beq_iff_eq, space, if_false]
    omega
  | @bare name g h v =>
    simp only [renderValue, List.count_append, List.count_cons, List.count_nil]
    simp only [beq_iff_eq, space, quote, if_false]
    omega

end Attribute

namespace Tag

variable {source : Text} {t : Tag} {n : Nat}

theorem TailSpelling.free {closing slash : Bool} {tail : Text} {as : List Attribute}
    (spelled : TailSpelling closing tail as slash) (positive : 0 < n) (free : Free n tail) :
    ∀ a ∈ as, Free n a.valueText := by
  induction spelled with
  | stop => simp
  | slash => simp
  | @more g source tail a as slash gap _ _ first others ih =>
    have plain : ∀ c ∈ g, isBacktick c = false := fun c inside => not_isBacktick (by decide) (gap c inside)
    have body := ((free_append_iff positive (endsUnticked_of_plain plain)).mp free).2
    obtain ⟨value, rest⟩ := first.free positive body
    intro b member
    rcases List.mem_cons.mp member with rfl | member
    · exact value
    · exact ih rest b member

theorem isBacktick_of_mem_name (valid : t.WellFormed) : ∀ c ∈ t.name, isBacktick c = false :=
  fun c inside => not_isBacktick (by decide) (valid.chars c inside)

/-- Writing a tag opens no run of backticks of a length that its source does not hold. -/
theorem Spelling.free_render (spelled : Spelling source t) (positive : 0 < n) (free : Free n source) (d : Dialect) :
    Free n (t.render d) := by
  have valid := spelled.wellFormed
  have values : ∀ a ∈ t.attributes, Free n a.valueText := by
    cases spelled with
    | @tag closing slash name tail attributes letter chars rest =>
      have open_ : ∀ c ∈ '<' :: ((if closing then ['/'] else []) ++ name), isBacktick c = false := by
        have named := isBacktick_of_mem_name valid
        have slash : isBacktick '/' = false := by decide
        cases closing <;> simpa [slash, isBacktick] using named
      have shape : '<' :: ((if closing then ['/'] else []) ++ (name ++ tail)) =
          ('<' :: ((if closing then ['/'] else []) ++ name)) ++ tail := by simp
      rw [shape] at free
      exact rest.free positive ((free_append_iff positive (endsUnticked_of_plain open_)).mp free).2
  have body : ∀ as : List Attribute, (∀ a ∈ as, a ∈ t.attributes) → ∀ s, Free n s →
      Free n (as.flatMap Attribute.render ++ s) := by
    intro as
    induction as with
    | nil => intro _ s done; simpa using done
    | cons a as ih =>
      intro members s done
      have here := members a (by simp)
      obtain ⟨first, ends⟩ := (valid.attributes a here).free_render positive (values a here)
      rw [List.flatMap_cons, List.append_assoc, free_append_iff positive ends]
      exact ⟨first, ih (fun b member => members b (List.mem_cons_of_mem _ member)) s done⟩
  have close : Free n (t.ending d) := by
    apply free_of_plain positive
    apply plain_of_all
    unfold ending
    split <;> decide
  have front : ∀ c ∈ '<' :: ((if t.kind = .closing then ['/'] else []) ++ t.name), isBacktick c = false := by
    have named := isBacktick_of_mem_name valid
    have slash : isBacktick '/' = false := by decide
    split <;> simpa [slash, isBacktick] using named
  have inner := body (t.normal d).attributes (fun a member => (List.mem_filter.mp member).1) _ close
  have whole := (free_append_iff positive (endsUnticked_of_plain front)).mpr ⟨free_of_plain positive front, inner⟩
  rw [render_eq valid]
  simpa using whole

theorem TailSpelling.count_le {closing slash : Bool} {tail : Text} {as : List Attribute}
    (spelled : TailSpelling closing tail as slash) {x : Char} (other : isTagMark x = false) (p : Attribute → Bool) :
    ((as.filter p).flatMap Attribute.render).count x ≤ tail.count x := by
  induction spelled with
  | stop => simp
  | slash => simp
  | @more g source tail a as slash _ _ _ first _ ih =>
    have here := first.count_render_le other
    rw [List.filter_cons]
    split
    · simp only [List.flatMap_cons, List.count_append]
      omega
    · simp only [List.count_append]
      omega

theorem Spelling.count_render_le (spelled : Spelling source t) {x : Char} (other : isTagMark x = false) (d : Dialect) :
    (t.render d).count x ≤ source.count x := by
  have valid := spelled.wellFormed
  rw [render_eq valid]
  cases spelled with
  | @tag closing slash name tail attributes letter chars rest =>
    have body := rest.count_le other (keeps d)
    have close : (ending d ⟨name, kindOf closing slash name, attributes, slash⟩).count x = 0 := by
      unfold ending
      split
      all_goals
        apply List.count_eq_zero.mpr
        intro inside
        simp only [List.mem_cons, List.not_mem_nil, or_false] at inside
      · rcases inside with rfl | rfl | rfl <;> exact absurd other (by decide)
      · obtain rfl := inside
        exact absurd other (by decide)
    simp only [kindOf_eq_closing, normal, List.count_cons, List.count_append]
    omega

theorem render_eq_cons (valid : t.WellFormed) (d : Dialect) : ∃ front, t.render d = '<' :: (front ++ ['>']) := by
  rw [render_eq valid]
  rcases (ending_valid d t).shape with ends | ends
  · exact ⟨_, by rw [ends, ← List.append_assoc, ← List.append_assoc]; exact congrArg _ (List.append_assoc _ [' ', '/'] ['>']).symm⟩
  · exact ⟨_, by rw [ends, ← List.append_assoc, ← List.append_assoc]⟩

theorem render_normal (d : Dialect) (t : Tag) : (t.normal d).render d = t.render d := by
  unfold render normal writtenSlash
  cases t.kind <;> cases d <;> simp

theorem isDataImage_normal (d : Dialect) {t : Tag} (harmless : t.isDataImage = false) :
    (t.normal d).isDataImage = false := by
  have all : ∀ p : Attribute → Bool, t.attributes.any p = false → (t.attributes.filter (keeps d)).any p = false := by
    intro p none
    rw [List.any_eq_false] at none ⊢
    intro a member
    exact none a (List.mem_filter.mp member).1
  unfold isDataImage at harmless ⊢
  simp only [Bool.and_eq_false_iff, normal] at harmless ⊢
  exact harmless.imp_right (all _)

end Tag
end NotebookPages
