import NotebookPages.Markup.Prose
import NotebookPages.Proofs.Markup.Backticks
import NotebookPages.Proofs.Markup.TagWriting
import NotebookPages.Proofs.Text.Trim

/-! The constructs of a prose line, apart from the line they stand on. Each is recognised by its own
characters and at most by the one that follows, so it is read again wherever it is written. -/

namespace NotebookPages.Markup

/-- A closed code span: it ends before every text that does not lengthen its last run. -/
structure IsCode (a : Text) : Prop where
  starts : ∃ x, a = '`' :: x
  stops : a.getLast? = some '`'
  reads : ∀ r, Unticked r → afterCode (a ++ r) = r

def IsComment (a : Text) : Prop := (∃ x, a = '\x7b' :: (x ++ ['\x7d'])) ∧ ∀ r, afterComment? (a ++ r) = some r

/-- The body of an HTML comment: the comment ends at the first mark after it. -/
def IsCommentBody (body : Text) : Prop := ∀ r : Text, Text.cut ['-', '-', '>'] (body ++ ('-' :: '-' :: '>' :: r)) = some (body, r)

def IsUrl (url : Text) : Prop :=
  (∀ c ∈ url, isUrlChar c = true) ∧
    ∃ scheme ∈ autolinkSchemes, Text.startsWith url scheme = true ∧ scheme.length < url.length

variable {n k : Nat} {s r a : Text}

theorem afterRun?_sound (positive : 0 < n) (found : afterRun? n k s = some r) :
    ∃ a, s = a ++ r ∧ Unticked r ∧ (k ≠ n → a ≠ []) ∧ (a ≠ [] → a.getLast? = some '`') ∧
      ∀ r', Unticked r' → afterRun? n k (a ++ r') = some r' := by
  have here : ∀ r', Unticked r' → afterRun? n n r' = some r' := by
    intro r' stop
    cases r' with
    | nil => simp [afterRun?]
    | cons c r' =>
      have plain : isBacktick c = false := stop c rfl
      simp [afterRun?, plain]
  induction s generalizing k with
  | nil =>
    simp only [afterRun?] at found
    split at found
    next same =>
      obtain rfl := Option.some.inj found
      obtain rfl : k = n := by simpa using same
      exact ⟨[], rfl, unticked_nil, by simp, by simp, here⟩
    next => cases found
  | cons c s ih =>
    simp only [afterRun?] at found
    split at found
    next tick =>
      obtain ⟨a, rfl, stop, -, last, again⟩ := ih found
      obtain rfl : c = '`' := by simpa [isBacktick] using tick
      refine ⟨'`' :: a, rfl, stop, by simp, fun _ => ?_, fun r' later => ?_⟩
      · by_cases done : a = []
        · simp [done]
        · simp [List.getLast?_cons, last done]
      · simpa [afterRun?, tick] using again r' later
    next plain =>
      split at found
      next same =>
        obtain rfl := Option.some.inj found
        obtain rfl : k = n := by simpa using same
        exact ⟨[], rfl, unticked_cons (by simpa using plain), by simp, by simp, here⟩
      next other =>
        obtain ⟨a, rfl, stop, some, last, again⟩ := ih found
        refine ⟨c :: a, rfl, stop, by simp, fun _ => ?_, fun r' later => ?_⟩
        · simp [List.getLast?_cons, last (some (Nat.ne_of_lt positive))]
        · simpa [afterRun?, plain, other] using again r' later

theorem takeWhile_ticks (n : Nat) (stop : Unticked s) :
    (List.replicate n '`' ++ s).takeWhile isBacktick = List.replicate n '`' ∧
      (List.replicate n '`' ++ s).dropWhile isBacktick = s := by
  have ticks : ∀ c ∈ List.replicate n '`', isBacktick c = true := by
    intro c inside
    obtain rfl := List.eq_of_mem_replicate inside
    rfl
  exact ⟨Text.takeWhile_stop ticks stop, Text.dropWhile_stop ticks stop⟩

theorem afterCode_ticks (n : Nat) (stop : Unticked s) :
    afterCode (List.replicate n '`' ++ s) = (afterRun? n 0 s).getD s := by
  simp [afterCode, takeWhile_ticks n stop]

theorem afterCode_cases (s : Text) :
    (∃ a r, '`' :: s = a ++ r ∧ afterCode ('`' :: s) = r ∧ IsCode a ∧ Unticked r) ∨
      ∃ n r, 0 < n ∧ '`' :: s = List.replicate n '`' ++ r ∧ afterCode ('`' :: s) = r ∧ Unticked r ∧ Free n r := by
  let ticks := ('`' :: s).takeWhile isBacktick
  let rest := ('`' :: s).dropWhile isBacktick
  have whole : ticks ++ rest = '`' :: s := List.takeWhile_append_dropWhile
  have same : ticks = List.replicate ticks.length '`' :=
    List.eq_replicate_of_mem fun c inside => by simpa [isBacktick] using List.mem_takeWhile_imp inside
  have positive : 0 < ticks.length := by simp [ticks, isBacktick]
  have stop : Unticked rest := by
    intro c first
    have dropped := List.head?_dropWhile_not isBacktick ('`' :: s)
    rw [show ('`' :: s).dropWhile isBacktick = rest from rfl, first] at dropped
    simpa using dropped
  rw [← whole, same]
  cases found : afterRun? ticks.length 0 rest with
  | none =>
    refine Or.inr ⟨ticks.length, rest, positive, rfl, ?_, stop, found⟩
    rw [afterCode_ticks _ stop, found]
    rfl
  | some r =>
    obtain ⟨a, split, later, nonempty, last, again⟩ := afterRun?_sound positive found
    have some := nonempty (Nat.ne_of_lt positive)
    have starts : ∀ r', Unticked (a ++ r') := by
      obtain ⟨c, a, rfl⟩ := List.exists_cons_of_ne_nil some
      intro r' d first
      exact stop d (by simpa [split] using first)
    refine Or.inl ⟨List.replicate ticks.length '`' ++ a, r, by rw [split, List.append_assoc], ?_, ⟨?_, ?_, ?_⟩, later⟩
    · rw [afterCode_ticks _ stop, found]
      rfl
    · obtain ⟨m, length⟩ := Nat.exists_eq_succ_of_ne_zero (Nat.ne_of_gt positive)
      exact ⟨List.replicate m '`' ++ a, by rw [length]; rfl⟩
    · rw [List.getLast?_append, last some]
      rfl
    · intro r' stop'
      rw [List.append_assoc, afterCode_ticks _ (starts r'), again r' stop']
      rfl

theorem afterComment?_sound (found : afterComment? s = some r) : ∃ a, s = a ++ r ∧ IsComment a := by
  have opens : ∀ t : Text, Text.after? ['\x7b', '/', '*'] ('\x7b' :: '/' :: '*' :: t) = some t :=
    fun t => Text.after?_eq_some_iff.mpr rfl
  simp only [afterComment?, String.reduceToList] at found
  split at found
  next => cases found
  next body opened =>
    obtain rfl := Text.after?_eq_some_iff.mp opened
    split at found
    next front rest closed =>
      obtain rfl := Option.some.inj found
      obtain rfl := Text.eq_of_cut closed
      refine ⟨'\x7b' :: '/' :: '*' :: (front ++ ['*', '/', '\x7d']), by simp, ⟨'/' :: '*' :: (front ++ ['*', '/']), by simp⟩, ?_⟩
      intro r'
      have again := Text.cut_append front _ ('\x7d' :: r') closed
      simp only [List.cons_append, List.nil_append] at again
      simp [afterComment?, opens, again]
    next => cases found

theorem IsComment.startsWith (comment : IsComment a) : ∃ x, a = '\x7b' :: '/' :: '*' :: x := by
  obtain ⟨-, again⟩ := comment
  have whole := again []
  simp only [afterComment?, String.reduceToList] at whole
  split at whole
  next => cases whole
  next body opened => exact ⟨body, by simpa using Text.after?_eq_some_iff.mp opened⟩

/-- The second text is the first with a blank inside every mark that ends an MDX comment. -/
inductive Spaced : Text → Text → Prop where
  | nil : Spaced [] []
  | mark {t v : Text} (rest : Spaced t v) : Spaced ('*' :: '/' :: t) ('*' :: ' ' :: '/' :: v)
  | other {c : Char} {t v : Text} (plain : ¬(c = '*' ∧ t.head? = some '/')) (rest : Spaced t v) : Spaced (c :: t) (c :: v)

theorem spaced_replace (t : Text) : Spaced t (Text.replace ['*', '/'] ['*', ' ', '/'] t) := by
  induction length : t.length using Nat.strongRecOn generalizing t with
  | ind n ih =>
    subst length
    cases t with
    | nil => exact .nil
    | cons c t =>
      unfold Text.replace
      rw [Text.replaceFrom]
      split
      next here =>
        obtain ⟨rest, same⟩ := Text.startsWith_iff.mp here
        obtain ⟨rfl, rfl⟩ := List.cons.inj same
        have shorter : rest.length < ('*' :: ([] ++ '/' :: rest)).length := Nat.lt_succ_of_lt (Nat.lt_succ_self _)
        exact .mark (ih rest.length shorter rest rfl)
      next plain =>
        refine .other ?_ (ih t.length (by simp) t rfl)
        rintro ⟨rfl, next⟩
        cases t with
        | nil => cases next
        | cons d t =>
          obtain rfl : d = '/' := by simpa using next
          exact plain (Text.startsWith_iff.mpr ⟨t, rfl⟩)

variable {t v : Text}

theorem Spaced.head?_eq (spaced : Spaced t v) : v.head? = t.head? := by
  cases spaced <;> rfl

theorem Spaced.cut (spaced : Spaced t v) (r : Text) :
    Text.cut ['*', '/'] (v ++ ' ' :: '*' :: '/' :: r) = some (v ++ [' '], r) := by
  induction spaced with
  | nil => simp [Text.cut, List.isPrefixOf?]
  | mark rest ih => simp [Text.cut, List.isPrefixOf?, ih]
  | @other c t v plain rest ih =>
    have none : List.isPrefixOf? ['*', '/'] (c :: (v ++ ' ' :: '*' :: '/' :: r)) = none := by
      cases found : List.isPrefixOf? ['*', '/'] (c :: (v ++ ' ' :: '*' :: '/' :: r)) with
      | none => rfl
      | some after =>
        obtain ⟨rfl, next⟩ := List.cons.inj (Text.isPrefixOf?_eq_some_iff.mp found)
        refine absurd ⟨rfl, ?_⟩ plain
        rw [← rest.head?_eq]
        cases v with
        | nil => simp at next
        | cons d v => simpa using (List.cons.inj next).1
    simp [Text.cut, none, ih]

theorem comment_mdx (t : Text) : Dialect.mdx.comment t =
    ['\x7b', '/', '*', ' '] ++ Text.replace ['*', '/'] ['*', ' ', '/'] t ++ [' ', '*', '/', '\x7d'] := rfl

/-- A comment is read back whole, whatever it says and whatever follows. -/
theorem isComment_comment (t : Text) : IsComment (Dialect.mdx.comment t) := by
  have body := spaced_replace t
  have opens : ∀ t : Text, Text.after? ['\x7b', '/', '*'] ('\x7b' :: '/' :: '*' :: t) = some t :=
    fun t => Text.after?_eq_some_iff.mpr rfl
  rw [comment_mdx]
  refine ⟨⟨'/' :: '*' :: ' ' :: (Text.replace ['*', '/'] ['*', ' ', '/'] t ++ [' ', '*', '/']), by simp⟩, fun r => ?_⟩
  have first := (Spaced.other (c := ' ') (by simp) body).cut ('\x7d' :: r)
  simp only [List.cons_append] at first
  simp [afterComment?, opens, first]

theorem Spaced.free {n k : Nat} (spaced : Spaced t v) (free : afterRun? n k t = none) : afterRun? n k v = none := by
  have solid : isBacktick '*' = false ∧ isBacktick ' ' = false ∧ isBacktick '/' = false := by decide
  induction spaced generalizing k with
  | nil => exact free
  | mark rest ih =>
    by_cases pending : k = n <;> by_cases zero : 0 = n
    all_goals simp only [afterRun?, solid, Bool.false_eq_true, if_false, beq_iff_eq, pending, zero, if_true, reduceCtorEq] at free ⊢
    exact ih free
  | @other c t v plain rest ih =>
    simp only [afterRun?] at free ⊢
    split at free
    next tick => simpa [tick] using ih free
    next plain =>
      split at free
      · cases free
      next other => simpa [plain, other] using ih free

theorem Spaced.count_le (spaced : Spaced t v) {x : Char} (other : x ≠ ' ') : v.count x ≤ t.count x := by
  induction spaced with
  | nil => simp
  | mark rest ih =>
    simp only [List.count_cons, beq_iff_eq, Ne.symm other, if_false]
    omega
  | other plain rest ih =>
    simp only [List.count_cons]
    omega

theorem not_isBacktick_of_blank {t : Text} (blank : Text.Blank t) : ∀ c ∈ t, isBacktick c = false :=
  fun c inside => not_isBacktick (by decide) (blank c inside)

theorem free_trim {n : Nat} (positive : 0 < n) (free : Free n t) : Free n (Text.trim t) := by
  obtain ⟨before, after, whole, blank, blank', -⟩ := Text.trim_split t
  rw [whole, free_append_iff positive (endsUnticked_of_plain (not_isBacktick_of_blank blank))] at free
  have stop : Unticked after := fun c first => not_isBacktick_of_blank blank' c (List.mem_of_mem_head? first)
  exact ((free_append_unticked positive stop).mp free.2).1

theorem free_comment {n : Nat} (positive : 0 < n) (free : Free n t) : Free n (Dialect.mdx.comment t) := by
  have body : Free n (Text.replace ['*', '/'] ['*', ' ', '/'] t) := (spaced_replace t).free free
  have front : ∀ c ∈ ['\x7b', '/', '*', ' '], isBacktick c = false := plain_of_all (by decide)
  have back : ∀ c ∈ [' ', '*', '/', '\x7d'], isBacktick c = false := plain_of_all (by decide)
  rw [comment_mdx, List.append_assoc, free_append_iff positive (endsUnticked_of_plain front),
    free_append_unticked positive (unticked_cons (by decide))]
  exact ⟨free_of_plain positive front, body, free_of_plain positive back⟩

theorem count_comment_le (t : Text) {x : Char} (other : x ∉ ['\x7b', '/', '*', ' ', '\x7d']) :
    (Dialect.mdx.comment t).count x ≤ t.count x := by
  have body := (spaced_replace t).count_le (x := x) (fun same => other (by simp [same]))
  have front : List.count x ['\x7b', '/', '*', ' '] = 0 := by
    apply List.count_eq_zero.mpr
    intro inside
    apply other
    simp only [List.mem_cons, List.not_mem_nil, or_false] at inside
    rcases inside with rfl | rfl | rfl | rfl <;> simp
  have back : List.count x [' ', '*', '/', '\x7d'] = 0 := by
    apply List.count_eq_zero.mpr
    intro inside
    apply other
    simp only [List.mem_cons, List.not_mem_nil, or_false] at inside
    rcases inside with rfl | rfl | rfl | rfl <;> simp
  simp only [comment_mdx, List.count_append, front, back]
  omega

theorem afterDataLink?_sound {s r : Text} (found : afterDataLink? s = some r) :
    ∃ x, s = '[' :: (x ++ ')' :: r) := by
  unfold afterDataLink? at found
  split at found
  next body =>
    split at found
    next => cases found
    next label url opened =>
      split at found
      next =>
        obtain ⟨⟨front, back⟩, closed, rfl⟩ := Option.map_eq_some_iff.mp found
        simp only [String.reduceToList] at opened closed
        obtain rfl := Text.eq_of_cut opened
        obtain ⟨rfl, -⟩ := Text.cut_singleton.mp closed
        exact ⟨label ++ (']' :: '(' :: front), by simp⟩
      next => cases found
  next => cases found

theorem eq_of_afterDataLink? (found : afterDataLink? (a ++ r) = some r) : ∃ x, a = '[' :: (x ++ [')']) := by
  obtain ⟨x, shape⟩ := afterDataLink?_sound found
  exact ⟨x, List.append_cancel_right (show a ++ r = _ ++ r by simpa using shape)⟩

theorem not_isUrlChar {c : Char} (closer : isUrlChar c = false) {url : Text} (valid : ∀ c ∈ url, isUrlChar c = true) :
    c ∉ url := fun inside => absurd (valid c inside) (by simp [closer])

theorem autolinkSchemes_unique {body a b : Text} (first : a ∈ autolinkSchemes) (second : b ∈ autolinkSchemes)
    (starts : a <+: body) (starts' : b <+: body) : a = b := by
  have comparable := List.prefix_or_prefix_of_prefix starts starts'
  revert comparable
  simp only [autolinkSchemes, List.mem_cons, List.not_mem_nil, or_false] at first second
  rcases first with rfl | rfl | rfl <;> rcases second with rfl | rfl | rfl <;> decide

theorem autolink?_eq_some_iff {s url r : Text} : autolink? s = some (url, r) ↔ s = '<' :: (url ++ '>' :: r) ∧ IsUrl url := by
  have closer : isUrlChar '>' = false := by decide
  constructor
  · intro found
    unfold autolink? at found
    split at found
    next body =>
      split at found
      next => cases found
      next scheme chosen =>
        split at found
        next => cases found
        next url' rest closed =>
          simp only [String.reduceToList] at closed
          obtain ⟨rfl, -⟩ := Text.cut_singleton.mp closed
          split at found
          next valid =>
            obtain ⟨rfl, rfl⟩ := Prod.mk.inj (Option.some.inj found)
            simp only [Bool.and_eq_true, decide_eq_true_eq, List.all_eq_true] at valid
            have here := List.find?_some chosen
            have starts : scheme <+: url' ++ '>' :: rest := List.isPrefixOf_iff_prefix.mp here
            have inner := List.prefix_of_prefix_length_le starts (List.prefix_append url' _) (Nat.le_of_lt valid.1)
            exact ⟨rfl, valid.2, scheme, List.mem_of_find?_eq_some chosen, List.isPrefixOf_iff_prefix.mpr inner, valid.1⟩
          next => cases found
    next => cases found
  · rintro ⟨rfl, valid, scheme, member, starts, longer⟩
    have here : scheme <+: url ++ '>' :: r := (List.isPrefixOf_iff_prefix.mp starts).trans (List.prefix_append _ _)
    have cut : Text.cut ['>'] (url ++ '>' :: r) = some (url, r) := Text.cut_singleton.mpr ⟨rfl, not_isUrlChar closer valid⟩
    have chosen : autolinkSchemes.find? (Text.startsWith (url ++ '>' :: r)) = some scheme := by
      cases found : autolinkSchemes.find? (Text.startsWith (url ++ '>' :: r)) with
      | none => exact absurd (List.isPrefixOf_iff_prefix.mpr here) (List.find?_eq_none.mp found scheme member)
      | some other =>
        have also := List.find?_some found
        have starts' : other <+: url ++ '>' :: r := List.isPrefixOf_iff_prefix.mp also
        rw [autolinkSchemes_unique (List.mem_of_find?_eq_some found) member starts' here]
    simp only [autolink?, chosen, String.reduceToList, cut]
    simpa [longer] using valid

theorem IsUrl.first {url : Text} (valid : IsUrl url) : ∃ c x, url = c :: x ∧ Text.isLetter c = true := by
  obtain ⟨-, scheme, member, starts, -⟩ := valid
  obtain ⟨rest, rfl⟩ := Text.startsWith_iff.mp starts
  simp only [autolinkSchemes, List.mem_cons, List.not_mem_nil, or_false] at member
  rcases member with rfl | rfl | rfl <;> exact ⟨_, _, rfl, by decide⟩

theorem IsUrl.length_lt {url : Text} (valid : IsUrl url) : 6 < url.length := by
  obtain ⟨-, scheme, member, -, longer⟩ := valid
  simp only [autolinkSchemes, List.mem_cons, List.not_mem_nil, or_false] at member
  rcases member with rfl | rfl | rfl <;> simp at longer <;> omega

theorem autolink?_eq_none_of_head {s : Text} (stop : ∀ c, s.head? = some c → Text.isLetter c = false) :
    autolink? ('<' :: s) = none := by
  cases found : autolink? ('<' :: s) with
  | none => rfl
  | some link =>
    obtain ⟨same, valid⟩ := autolink?_eq_some_iff.mp found
    obtain ⟨c, x, shape, letter⟩ := valid.first
    obtain rfl := (List.cons.inj same).2
    rw [stop c (by rw [shape]; rfl)] at letter
    cases letter

theorem length_of_isVoid {name : Text} (void : Tag.isVoid name = true) : name.length ≤ 6 := by
  simp only [Tag.isVoid, List.any_eq_true] at void
  obtain ⟨element, member, same⟩ := void
  have lengths : name.length = element.length := by
    have mapped := congrArg List.length (beq_iff_eq.mp same)
    simpa using mapped
  rw [lengths]
  revert member
  simp only [Tag.voidElements, List.mem_cons, List.not_mem_nil, or_false]
  rintro (rfl | rfl | rfl | rfl | rfl | rfl | rfl | rfl | rfl | rfl | rfl | rfl | rfl | rfl) <;> decide

private theorem eq_of_closed {name url y z : Text} {e : Char} (same : name ++ e :: y = url ++ '>' :: z) (absent : e ∉ url)
    (closer : '>' ∉ name) : name = url ∧ e = '>' ∧ y = z := by
  rcases List.append_eq_append_iff.mp same with ⟨w, rfl, rest⟩ | ⟨w, rfl, rest⟩
  · cases w with
    | nil =>
      obtain ⟨rfl, rfl⟩ := List.cons.inj rest
      exact ⟨(List.append_nil _).symm, rfl, rfl⟩
    | cons f w =>
      obtain rfl := (List.cons.inj rest).1
      exact absurd (List.mem_append_right name List.mem_cons_self) absent
  · cases w with
    | nil =>
      obtain ⟨rfl, rfl⟩ := List.cons.inj rest
      exact ⟨List.append_nil _, rfl, rfl⟩
    | cons f w =>
      obtain rfl := (List.cons.inj rest).1
      exact absurd (List.mem_append_right url List.mem_cons_self) closer

/-- A tag is taken for an autolink only where nothing but its name is written. -/
theorem autolink?_render {d : Dialect} {t : Tag} (valid : t.WellFormed) {r url rest : Text}
    (found : autolink? (t.render d ++ r) = some (url, rest)) :
    t.kind = .opening ∧ t.render d = '<' :: (url ++ ['>']) ∧ rest = r := by
  obtain ⟨shape, isUrl⟩ := autolink?_eq_some_iff.mp found
  obtain ⟨c, x, first, letter⟩ := isUrl.first
  have closer : '>' ∉ url := not_isUrlChar (by decide) isUrl.1
  have space : ' ' ∉ url := not_isUrlChar (by decide) isUrl.1
  have named : '>' ∉ t.name := fun inside => absurd (valid.chars '>' inside) (by decide)
  rw [Tag.render_eq valid] at shape ⊢
  by_cases closing : t.kind = .closing
  · simp only [closing, if_true, List.cons_append, List.nil_append, first, List.cons.injEq, true_and] at shape
    obtain ⟨rfl, -⟩ := shape
    exact absurd letter (by decide)
  · simp only [closing, if_false, List.nil_append, List.cons_append, List.append_assoc, List.cons.injEq, true_and] at shape ⊢
    cases as : (t.normal d).attributes with
    | cons a as' =>
      simp only [as, List.flatMap_cons, Attribute.render_eq, List.cons_append] at shape
      cases (eq_of_closed shape space named).2.1
    | nil =>
      simp only [as, List.flatMap_nil, List.nil_append] at shape ⊢
      cases slash : t.writtenSlash d with
      | true =>
        simp only [Tag.ending, slash, if_true, List.cons_append] at shape
        cases (eq_of_closed shape space named).2.1
      | false =>
        simp only [Tag.ending, slash, Bool.false_eq_true, if_false, List.cons_append, List.nil_append] at shape ⊢
        obtain ⟨same, -, behind⟩ := eq_of_closed shape closer named
        refine ⟨?_, by rw [same], behind.symm⟩
        have long := isUrl.length_lt
        have solid : Tag.isVoid t.name = false := by
          cases void : Tag.isVoid t.name with
          | false => rfl
          | true => exact absurd (length_of_isVoid void) (by rw [same]; omega)
        have kind := Tag.kindOf_writtenSlash valid closing d
        simpa [Tag.kindOf, slash, solid] using kind.symm

/-- Whether a written tag is taken for an autolink does not depend on what follows it. -/
theorem autolink?_render_append {d : Dialect} {t : Tag} (valid : t.WellFormed) (r : Text) :
    autolink? (t.render d ++ r) = (autolink? (t.render d)).map fun (url, _) => (url, r) := by
  cases found : autolink? (t.render d) with
  | some link =>
    obtain ⟨url, rest⟩ := link
    obtain ⟨shape, isUrl⟩ := autolink?_eq_some_iff.mp found
    obtain ⟨-, whole, -⟩ := autolink?_render valid (r := []) (by rw [List.append_nil]; exact found)
    exact autolink?_eq_some_iff.mpr ⟨by simp [whole], isUrl⟩
  | none =>
    cases found' : autolink? (t.render d ++ r) with
    | none => rfl
    | some link =>
      obtain ⟨url, rest⟩ := link
      obtain ⟨-, whole, -⟩ := autolink?_render valid found'
      have isUrl := (autolink?_eq_some_iff.mp found').2
      rw [autolink?_eq_some_iff.mpr (show t.render d = '<' :: (url ++ '>' :: []) ∧ IsUrl url from ⟨whole, isUrl⟩)] at found
      cases found

end NotebookPages.Markup
