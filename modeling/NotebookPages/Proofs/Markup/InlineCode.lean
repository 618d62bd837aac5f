import NotebookPages.Proofs.Markup.Overruns

/-! Inline code between runs of backticks. The span is copied where the scanner comes to its first run, whatever it holds. A link
to a data URL that begins before that run can end behind it, and takes the span. -/

namespace NotebookPages.Markup

open Piece

/-- The text between two runs of `n` backticks. -/
def codeSpan (n : Nat) (c : Text) : Text := List.replicate n '`' ++ (c ++ List.replicate n '`')

/-- No run of exactly `n` backticks stands in the text. -/
def RunFree (n : Nat) (c : Text) : Prop :=
  ∀ x y, c = x ++ (List.replicate n '`' ++ y) → x.getLast? = some '`' ∨ y.head? = some '`'

variable {rules : Rules} {d : Dialect} {q : Bool} {b : Option Char} {n k : Nat} {a c p r s w x after : Text} {ps : List Piece}

theorem exists_codeSpan_eq (positive : 0 < n) (c : Text) : ∃ z, codeSpan n c = '`' :: z := by
  obtain ⟨n, rfl⟩ := Nat.exists_eq_succ_of_ne_zero (Nat.ne_of_gt positive)
  exact ⟨_, rfl⟩

theorem afterRun?_replicate (n k m : Nat) (s : Text) : afterRun? n k (List.replicate m '`' ++ s) = afterRun? n (k + m) s := by
  induction m generalizing k with
  | zero => rfl
  | succ m ih => exact (ih (k + 1)).trans (by rw [Nat.add_assoc, Nat.add_comm 1 m])

theorem afterRun?_here (stop : Unticked s) : afterRun? n n s = some s := by
  cases s with
  | nil => simp [afterRun?]
  | cons c s => simp [afterRun?, stop c rfl]

/-- The run that is found: the one that goes on at the start of the text, or one inside it. -/
theorem run_of_afterRun? (found : afterRun? n k s = some r) : Unticked r ∧
    ((k ≤ n ∧ s = List.replicate (n - k) '`' ++ r) ∨ ∃ x, x ≠ [] ∧ x.getLast? ≠ some '`' ∧ s = x ++ (List.replicate n '`' ++ r)) := by
  induction s generalizing k with
  | nil =>
    simp only [afterRun?] at found
    split at found
    next same =>
      obtain rfl := Option.some.inj found
      obtain rfl : k = n := by simpa using same
      exact ⟨unticked_nil, Or.inl ⟨Nat.le_refl _, by simp⟩⟩
    next => cases found
  | cons c s ih =>
    simp only [afterRun?] at found
    split at found
    next tick =>
      obtain rfl : c = '`' := by simpa [isBacktick] using tick
      obtain ⟨stop, ⟨short, rfl⟩ | ⟨x, some, other, rfl⟩⟩ := ih found
      · refine ⟨stop, Or.inl ⟨Nat.le_of_succ_le short, ?_⟩⟩
        rw [show n - k = (n - (k + 1)) + 1 by omega, List.replicate_succ, List.cons_append]
      · refine ⟨stop, Or.inr ⟨'`' :: x, by simp, ?_, rfl⟩⟩
        rwa [List.getLast?_cons_of_ne_nil some]
    next plain =>
      split at found
      next same =>
        obtain rfl := Option.some.inj found
        obtain rfl : k = n := by simpa using same
        exact ⟨unticked_cons (by simpa using plain), Or.inl ⟨Nat.le_refl _, by simp⟩⟩
      next =>
        have other : c ≠ '`' := by simpa [isBacktick] using plain
        obtain ⟨stop, ⟨-, rfl⟩ | ⟨x, some, last, rfl⟩⟩ := ih found
        · exact ⟨stop, Or.inr ⟨[c], by simp, by simpa using other, rfl⟩⟩
        · refine ⟨stop, Or.inr ⟨c :: x, by simp, ?_, rfl⟩⟩
          rwa [List.getLast?_cons_of_ne_nil some]

theorem runFree_iff (positive : 0 < n) : RunFree n c ↔ Free n c := by
  constructor
  · intro none
    cases found : afterRun? n 0 c with
    | none => exact found
    | some r =>
      obtain ⟨stop, here⟩ := run_of_afterRun? found
      obtain ⟨x, last, whole⟩ : ∃ x : Text, x.getLast? ≠ some '`' ∧ c = x ++ (List.replicate n '`' ++ r) := by
        rcases here with ⟨-, rfl⟩ | ⟨x, -, last, whole⟩
        · exact ⟨[], by simp, rfl⟩
        · exact ⟨x, last, whole⟩
      rcases none x r whole with tick | tick
      · exact absurd tick last
      · exact absurd (stop '`' tick) (by decide)
  · rintro free x y rfl
    by_contra apart
    obtain ⟨last, first⟩ := not_or.mp apart
    have ends : EndsUnticked x := fun e same => by
      simpa [isBacktick] using fun tick : e = '`' => last (by rw [same, tick])
    have stop : Unticked y := fun e same => by
      simpa [isBacktick] using fun tick : e = '`' => first (by rw [same, tick])
    have inner := ((free_append_iff positive ends).mp free).2
    rw [Free, afterRun?_replicate, Nat.zero_add, afterRun?_here stop] at inner
    cases inner

/-- A run of backticks is read with everything up to the run that closes it, or by itself. -/
theorem token_run (positive : 0 < n) (stop : Unticked (a ++ r)) (ends : (afterRun? n 0 (a ++ r)).getD (a ++ r) = r) :
    Unticked r ∧ (List.replicate n '`' ++ a).getLast? = some '`' ∧
      ∀ d q b, Token d q b (List.replicate n '`' ++ a) r (.plain (List.replicate n '`' ++ a)) := by
  have read := afterCode_ticks n stop
  rw [ends] at read
  obtain ⟨n, rfl⟩ := Nat.exists_eq_succ_of_ne_zero (Nat.ne_of_gt positive)
  have whole : '`' :: (List.replicate n '`' ++ (a ++ r)) = (List.replicate (n + 1) '`' ++ a) ++ r := by
    rw [List.append_assoc]
    rfl
  rcases afterCode_cases (List.replicate n '`' ++ (a ++ r)) with ⟨x, y, shape, same, span, stop'⟩ | ⟨m, y, some, shape, same, stop', free⟩
  · obtain rfl : y = r := same.symm.trans read
    obtain rfl : x = List.replicate (n + 1) '`' ++ a := List.append_cancel_right (shape.symm.trans whole)
    exact ⟨stop', span.stops, fun _ _ _ => .code span stop'⟩
  · obtain rfl : y = r := same.symm.trans read
    have run : List.replicate m '`' = List.replicate (n + 1) '`' ++ a := List.append_cancel_right (shape.symm.trans whole)
    rw [← run, List.getLast?_replicate, if_neg (Nat.ne_of_gt some)]
    exact ⟨stop', rfl, fun _ _ _ => .ticks some stop' free⟩

/-- A span is read as one piece. With nothing between its runs it is one run, and its piece may be longer. -/
theorem token_codeSpan (positive : 0 < n) (free : RunFree n c) (first : Unticked c) (last : EndsUnticked c) (stop : Unticked s) :
    ∃ a r, s = a ++ r ∧ Unticked r ∧ (codeSpan n c ++ a).getLast? = some '`' ∧
      ∀ d q b, Token d q b (codeSpan n c ++ a) r (.plain (codeSpan n c ++ a)) := by
  by_cases empty : c = []
  · subst empty
    have one : ∀ a, codeSpan n [] ++ a = List.replicate (n + n) '`' ++ a := fun a => by
      rw [codeSpan, List.nil_append, List.replicate_append_replicate]
    obtain ⟨a, r, rfl, ends⟩ : ∃ a r, s = a ++ r ∧ (afterRun? (n + n) 0 s).getD s = r := by
      cases found : afterRun? (n + n) 0 s with
      | none => exact ⟨[], s, rfl, rfl⟩
      | some r =>
        obtain ⟨a, whole, -⟩ := afterRun?_sound (Nat.add_pos_left positive n) found
        exact ⟨a, r, whole, rfl⟩
    refine ⟨a, r, rfl, ?_⟩
    rw [one]
    exact token_run (Nat.add_pos_left positive n) stop ends
  · have closes : afterRun? n 0 (c ++ (List.replicate n '`' ++ s)) = some s := by
      have open' : afterRun? n 0 (c ++ []) = none := by
        rw [List.append_nil]
        exact (runFree_iff positive).mp free
      rw [afterRun?_append open', runAfter_zero last, afterRun?_replicate, Nat.zero_add, afterRun?_here stop]
    have stop' : Unticked ((c ++ List.replicate n '`') ++ s) := by
      obtain ⟨e, c, rfl⟩ := List.exists_cons_of_ne_nil empty
      exact unticked_cons (first e rfl)
    rw [← List.append_assoc] at closes
    refine ⟨[], s, rfl, ?_⟩
    rw [List.append_nil]
    exact token_run positive stop' (by rw [closes]; rfl)

theorem opening_codeSpan (reading : Reading d after q b p ps) (simple : Simple p) (stop : Unticked w) (two : 2 ≤ n)
    (blank : Text.Blank p) (absent : '`' ∉ w) :
    (⟨'`', n + n⟩ : Fence).Opening (ps.flatMap (chunk d) ++ (codeSpan n [] ++ w)) p w where
  shape := by rw [chunks_of_blank reading simple (Or.inl blank), codeSpan, List.nil_append, List.replicate_append_replicate]
  blank := blank
  marker := Or.inl rfl
  long := by show 3 ≤ n + n; omega
  stop := fun tick => absurd (stop '`' tick) (by decide)
  plain := fun _ => absent

/-- A span at the start of a line of prose is written as a fence only if it is one run and no backtick is written behind it. -/
theorem open?_codeSpan_iff (reading : Reading d after q b p ps) (simple : Simple p) (prose : Fence.open? (p ++ x) = none)
    (positive : 0 < n) (first : Unticked c) (stop : Unticked w) :
    Fence.open? (ps.flatMap (chunk d) ++ (codeSpan n c ++ w)) ≠ none ↔ c = [] ∧ 2 ≤ n ∧ Text.Blank p ∧ '`' ∉ w := by
  constructor
  · intro opens
    obtain ⟨fence, found⟩ := Option.ne_none_iff_exists'.mp opens
    obtain ⟨blanks, info, opening⟩ := Fence.open?_sound found
    obtain ⟨z, run⟩ := exists_codeSpan_eq positive c
    rw [run, List.cons_append] at opening
    obtain ⟨rfl, -, tick⟩ := opening_of_chunks reading simple prose (by decide) (by decide) opening
    have same := chunks_of_blank reading simple (Or.inr opening.blank)
    have whole := List.append_cancel_left opening.shape
    rw [← List.cons_append, ← run, tick] at whole
    have plain := opening.plain tick
    have stop' : Unticked info := fun e head => by
      simpa [isBacktick] using fun same : e = '`' => opening.stop (by rw [head, same, tick])
    have runs := takeWhile_ticks fence.length stop'
    rw [← whole] at runs
    cases c with
    | nil =>
      rw [codeSpan, List.nil_append, List.replicate_append_replicate, (takeWhile_ticks _ stop).1, (takeWhile_ticks _ stop).2] at runs
      have length : n + n = fence.length := by simpa using congrArg List.length runs.1
      have long := opening.long
      exact ⟨rfl, by omega, same ▸ opening.blank, runs.2 ▸ plain⟩
    | cons e c =>
      have body : Unticked (e :: c ++ List.replicate n '`' ++ w) := unticked_cons (first e rfl)
      rw [codeSpan, List.append_assoc, (takeWhile_ticks _ body).2] at runs
      refine absurd ?_ plain
      rw [← runs.2]
      simp [Nat.ne_of_gt positive]
  · rintro ⟨rfl, two, blank, absent⟩
    rw [(opening_codeSpan reading simple stop two blank absent).open?]
    simp

theorem count_guardFence {e : Char} (other : e ≠ '\\') (w : Text) : (Line.guardFence w).count e = w.count e := by
  rcases guardFence_cases w with same | ⟨blanks, marks, -, shape, guarded⟩
  · rw [same]
  · rw [guarded, shape, List.count_append, List.count_append, List.count_cons_of_ne (Ne.symm other)]

theorem count_codeSpan_nil (n : Nat) : (codeSpan n []).count '`' = 2 * n := by
  rw [codeSpan, List.nil_append, List.replicate_append_replicate, List.count_replicate_self]
  omega

/-- The note for a long line holds no backtick. -/
theorem not_prefix_longLineNote (positive : 0 < n) (d : Dialect) : ¬ w ++ codeSpan n c <+: d.comment longLineNote := by
  intro starts
  have absent : '`' ∉ d.comment longLineNote := by cases d <;> decide
  obtain ⟨z, run⟩ := exists_codeSpan_eq positive c
  exact absent (starts.subset (by simp [run]))

/-- Where a link takes the span, the note for an image stands in its place. -/
theorem not_prefix_of_overrun (positive : 0 < n) (overrun : Overrun rules.dialect true none p after) (simple : Simple p)
    (detached : Detached after) (oneLine : Text.IsLine (p ++ after)) (prose : Fence.open? (p ++ after) = none) :
    ¬ sanitize rules p ++ codeSpan n c <+: sanitize rules (p ++ after) := by
  obtain ⟨front, m, z, w, mark, plain, own, written⟩ := sanitize_of_overrun overrun simple detached oneLine prose
  rcases written with written | written
  · rw [written]
    rcases own with own | own
    · rw [own, List.append_assoc, List.prefix_append_right_inj]
      intro starts
      obtain rfl := (List.cons_prefix_cons.mp starts).1
      exact absurd mark (by decide)
    · obtain ⟨e, y, note, angle⟩ : ∃ e y, rules.dialect.comment longLineNote = e :: y ∧ e ∈ ['<', '\x7b'] := by
        cases rules.dialect
        · exact ⟨_, _, rfl, by decide⟩
        · exact ⟨_, _, rfl, by decide⟩
      rw [own, note]
      intro starts
      cases front with
      | nil =>
        obtain rfl := (List.cons_prefix_cons.mp starts).1
        exact absurd angle (by decide)
      | cons f front =>
        obtain rfl := (List.cons_prefix_cons.mp starts).1
        exact plain e (List.mem_cons_of_mem _ angle) (by simp)
  · rw [written]
    exact not_prefix_longLineNote positive rules.dialect

theorem detached_codeSpan (positive : 0 < n) (c s : Text) : Detached (codeSpan n c ++ s) := by
  obtain ⟨z, run⟩ := exists_codeSpan_eq positive c
  rw [run]
  exact detached_cons (by decide) _

/-- A line whose scanner comes to the span: the span is written as it stands, and what is written behind it does not lengthen it. -/
theorem sanitize_codeSpan (positive : 0 < n) (simple : Simple p) (free : RunFree n c) (first : Unticked c) (last : EndsUnticked c)
    (stop : Unticked s) (oneLine : Text.IsLine (p ++ (codeSpan n c ++ s))) (prose : Fence.open? (p ++ (codeSpan n c ++ s)) = none)
    (reading : Reading rules.dialect (codeSpan n c ++ s) true none p ps) :
    ∃ w, Unticked w ∧ (ps.flatMap (chunk rules.dialect)).length ≤ totalWidth rules.dialect (scanLine rules.dialect (p ++ (codeSpan n c ++ s))) ∧
      sanitize rules (p ++ (codeSpan n c ++ s)) =
        if totalWidth rules.dialect (scanLine rules.dialect (p ++ (codeSpan n c ++ s))) ≤ rules.maxLine
        then Line.guardFence (ps.flatMap (chunk rules.dialect) ++ (codeSpan n c ++ w))
        else rules.dialect.comment longLineNote := by
  obtain ⟨a, r, rfl, stop', tick, token⟩ := token_codeSpan positive free first last stop
  obtain ⟨q, b, qs, rest, back⟩ : ∃ q b qs, Reading rules.dialect [] q b r qs ∧ Reading rules.dialect [] (true && p.all isLead)
      (p.getLast?.or none) (codeSpan n c ++ a ++ r) (.plain (codeSpan n c ++ a) :: qs) :=
    ⟨_, _, _, reading_scan .., .more (by rw [List.append_nil]; exact token _ _ _) (reading_scan ..)⟩
  rw [List.append_assoc] at back
  obtain ⟨width, flags, last', afterText, written⟩ := sanitize_behind reading simple oneLine prose back
  rw [settle_plain, weld_plain, space_of_tight, List.nil_append, tick, Option.some_or, List.append_assoc] at written
  refine ⟨a ++ weld rules.dialect (some '`') false true (settle flags qs), ?_, width ▸ Nat.le_add_right _ _, written⟩
  cases a with
  | nil => exact (sameStart_weld (by decide) rest flags).unticked stop'
  | cons e a => exact unticked_cons (stop e rfl)

/-- What is written for a prefix and a code span stands at the start of the written line exactly if no link that begins in the
prefix takes the span, the line fits and, where the span is one run at the start of the line, a backtick is written behind it. -/
theorem startsWith_code_iff {s : Text} (positive : 0 < n) (simple : Simple p) (free : RunFree n c) (first : Unticked c)
    (last : EndsUnticked c) (stop : Unticked s) (oneLine : Text.IsLine (p ++ (codeSpan n c ++ s)))
    (prose : Fence.open? (p ++ (codeSpan n c ++ s)) = none) :
    Text.startsWith (sanitize rules (p ++ (codeSpan n c ++ s))) (sanitize rules p ++ codeSpan n c) = true ↔
      overruns (codeSpan n c ++ s) 0 p = false ∧
        totalWidth rules.dialect (scanLine rules.dialect (p ++ (codeSpan n c ++ s))) ≤ rules.maxLine ∧
        (c = [] → 2 ≤ n → Text.Blank p → 2 * n < (sanitize rules (p ++ (codeSpan n c ++ s))).count '`') := by
  rw [Text.startsWith, List.isPrefixOf_iff_prefix]
  have detached := detached_codeSpan positive c s
  rcases reading_or_overrun simple detached true none with ⟨within, ps, reading⟩ | ⟨reaches, overrun⟩
  · obtain ⟨w, behind, short, written⟩ := sanitize_codeSpan positive simple free first last stop oneLine prose reading
    by_cases fits : totalWidth rules.dialect (scanLine rules.dialect (p ++ (codeSpan n c ++ s))) ≤ rules.maxLine
    · have own : sanitize rules p = ps.flatMap (chunk rules.dialect) := by
        have alone : Reading rules.dialect [] true none p ps := reading.alone (t := []) simple detached
        rw [sanitize_simple alone simple (fun newline => oneLine (List.mem_append_left _ newline)) prose,
          if_pos (Nat.le_trans short fits)]
      have guarded := open?_codeSpan_iff reading simple prose positive first behind
      rw [if_pos fits] at written
      rw [own]
      by_cases opens : Fence.open? (ps.flatMap (chunk rules.dialect) ++ (codeSpan n c ++ w)) = none
      · rw [guardFence_of_none opens] at written
        rw [written]
        refine iff_of_true ⟨w, List.append_assoc ..⟩ ⟨within, fits, ?_⟩
        rintro rfl two blank
        have more : '`' ∈ w := Decidable.by_contra fun absent => guarded.mpr ⟨rfl, two, blank, absent⟩ opens
        have count := List.count_pos_iff.mpr more
        rw [List.count_append, List.count_append, count_codeSpan_nil]
        omega
      · obtain ⟨rfl, two, blank, absent⟩ := guarded.mp opens
        have same := chunks_of_blank reading simple (Or.inl blank)
        have none : p.count '`' = 0 := List.count_eq_zero.mpr (simple.not_mem (by decide))
        refine iff_of_false ?_ fun kept => ?_
        · -- the backslash of the guard stands where the run would begin
          obtain ⟨z, run⟩ := exists_codeSpan_eq positive []
          rw [written, Fence.Opening.guardFence (opening_codeSpan reading simple behind two blank absent), same,
            List.prefix_append_right_inj, run]
          intro starts
          cases (List.cons_prefix_cons.mp starts).1
        · have count := kept.2.2 rfl two blank
          rw [written, count_guardFence (by decide), same, List.count_append, List.count_append, count_codeSpan_nil, none,
            List.count_eq_zero.mpr absent] at count
          omega
    · rw [if_neg fits] at written
      rw [written]
      exact iff_of_false (not_prefix_longLineNote positive rules.dialect) fun kept => fits kept.2.1
  · refine iff_of_false (not_prefix_of_overrun positive overrun simple detached oneLine prose) fun kept => ?_
    rw [reaches] at kept
    exact Bool.noConfusion kept.1

/-- The link in the code closes no bracket, since the one before the span is closed already. -/
theorem startsWith_code_bracketed :
    Simple "[b](c) " ∧ RunFree 2 "x`](data:y)" ∧ Fence.open? ("[b](c) " ++ (codeSpan 2 "x`](data:y)" ++ " z")) = none ∧
      overruns (codeSpan 2 "x`](data:y)" ++ " z") 0 "[b](c) " = false ∧
      Text.startsWith (sanitize {} ("[b](c) " ++ (codeSpan 2 "x`](data:y)" ++ " z"))) (sanitize {} "[b](c) " ++ codeSpan 2 "x`](data:y)") = true := by
  have simple : Simple "[b](c) " := by decide
  have free : RunFree 2 "x`](data:y)" := (runFree_iff (by decide)).mpr rfl
  have first : Unticked "x`](data:y)" := unticked_cons (by decide)
  have last : EndsUnticked "x`](data:y)" := by
    intro e same
    obtain rfl : ')' = e := Option.some.inj same
    decide
  have stop : Unticked " z" := unticked_cons (by decide)
  have oneLine : Text.IsLine ("[b](c) " ++ (codeSpan 2 "x`](data:y)" ++ " z")) := by
    unfold Text.IsLine
    decide
  have prose : Fence.open? ("[b](c) " ++ (codeSpan 2 "x`](data:y)" ++ " z")) = none := rfl
  have within : overruns (codeSpan 2 "x`](data:y)" ++ " z") 0 "[b](c) " = false := rfl
  refine ⟨simple, free, prose, within, ?_⟩
  exact (startsWith_code_iff (by decide) simple free first last stop oneLine prose).mpr ⟨within, by decide +kernel, by simp⟩

/-- A bracket before the span and a link in it: the link is replaced with the first backtick of the span. Two runs with nothing
between them at the start of a line: the backslash of a guard stands before them. -/
theorem code_not_kept :
    (Simple "[a" ∧ RunFree 1 "](data:x)" ∧ Fence.open? ("[a" ++ codeSpan 1 "](data:x)") = none ∧
      sanitize {} ("[a" ++ codeSpan 1 "](data:x)") = "_(embedded image omitted)_`" ∧
      Text.startsWith (sanitize {} ("[a" ++ codeSpan 1 "](data:x)")) (sanitize {} "[a" ++ codeSpan 1 "](data:x)") = false) ∧
    (Simple [] ∧ RunFree 2 [] ∧ Fence.open? (codeSpan 2 [] ++ " ![](data:`)") = none ∧
      sanitize {} (codeSpan 2 [] ++ " ![](data:`)") = "\\```` _(embedded image omitted)_" ∧
      Text.startsWith (sanitize {} (codeSpan 2 [] ++ " ![](data:`)")) (sanitize {} [] ++ codeSpan 2 []) = false) := by
  have free : RunFree 1 "](data:x)" := (runFree_iff (by decide)).mpr rfl
  have free' : RunFree 2 [] := (runFree_iff (by decide)).mpr rfl
  refine ⟨⟨by decide, free, ?_⟩, ⟨by decide, free', ?_⟩⟩
  · decide +kernel
  · decide +kernel

end NotebookPages.Markup
