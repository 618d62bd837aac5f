import NotebookPages.Markup.Sanitize
import NotebookPages.Proofs.Markup.Reread

/-! Lines that open a fence, and the backslash that keeps a written line from opening one. -/

namespace NotebookPages

namespace Fence

/-- The line opens the fence: blanks, the markers and an info string. -/
structure Opening (fence : Fence) (line blanks info : Text) : Prop where
  shape : line = blanks ++ (List.replicate fence.length fence.marker ++ info)
  blank : Text.Blank blanks
  marker : fence.marker = '`' ∨ fence.marker = '~'
  long : 3 ≤ fence.length
  stop : info.head? ≠ some fence.marker
  plain : fence.marker = '`' → '`' ∉ info

variable {line blanks info : Text} {fence : Fence}

theorem open?_sound (found : open? line = some fence) : ∃ blanks info, fence.Opening line blanks info := by
  obtain ⟨blanks, shape, blank, -⟩ := Text.trimStart_split line
  unfold open? at found
  split at found
  next => cases found
  next m rest body =>
    split at found
    next marker =>
      simp only at found
      split at found
      next => cases found
      next long =>
        obtain rfl := Option.some.inj found
        simp only [Bool.or_eq_true, beq_iff_eq] at marker
        rw [Bool.not_eq_true, Bool.or_eq_false_iff, decide_eq_false_iff_not, Nat.not_lt] at long
        have run : rest.takeWhile (· == m) = List.replicate (rest.takeWhile (· == m)).length m :=
          List.eq_replicate_of_mem fun c inside => by simpa using List.mem_takeWhile_imp inside
        refine ⟨blanks, rest.dropWhile (· == m), ?_, blank, marker, long.1, ?_, fun tick => ?_⟩
        · rw [List.replicate_succ, List.cons_append, ← run, List.takeWhile_append_dropWhile, ← body]
          exact shape
        · intro first
          have stop := List.head?_dropWhile_not (· == m) rest
          simp [first] at stop
        · have plain := long.2
          rw [show m = '`' from tick] at plain ⊢
          simpa using plain
    next => cases found

theorem Opening.exists_length (opening : fence.Opening line blanks info) : ∃ n, fence.length = n + 1 :=
  Nat.exists_eq_succ_of_ne_zero (by have := opening.long; omega)

theorem Opening.solid (opening : fence.Opening line blanks info) : Text.isBlank fence.marker = false := by
  rcases opening.marker with same | same <;> rw [same] <;> decide

theorem Opening.trimStart (opening : fence.Opening line blanks info) :
    Text.trimStart line = List.replicate fence.length fence.marker ++ info := by
  obtain ⟨n, long⟩ := opening.exists_length
  have solid := opening.solid
  rw [opening.shape, Text.trimStart_of_blank opening.blank, long, List.replicate_succ, List.cons_append, Text.trimStart,
    List.dropWhile_cons, solid]
  simp

theorem Opening.open? (opening : fence.Opening line blanks info) : open? line = some fence := by
  obtain ⟨n, long⟩ := opening.exists_length
  have stop : ∀ c, info.head? = some c → (c == fence.marker) = false := by
    intro c first
    simpa using fun same : c = fence.marker => opening.stop (same ▸ first)
  have run : ∀ c ∈ List.replicate n fence.marker, (c == fence.marker) = true := by simp
  have enough : ¬ n + 1 < 3 := by have := opening.long; omega
  have marker : (fence.marker == '`' || fence.marker == '~') = true := by simpa using opening.marker
  have plain : ¬ ((fence.marker == '`' && info.contains '`') = true) := by simpa using opening.plain
  unfold Fence.open?
  rw [opening.trimStart, long, List.replicate_succ, List.cons_append]
  simp only [marker, if_true, Text.takeWhile_stop run stop, Text.dropWhile_stop run stop, List.length_replicate]
  rw [if_neg (by simpa [enough] using plain), ← long]

theorem open?_eq_none_of_head {c : Char} {rest : Text} (body : Text.trimStart line = c :: rest) (other : c ≠ '`' ∧ c ≠ '~') :
    Fence.open? line = none := by
  unfold Fence.open?
  simp [body, other]

end Fence

namespace Markup

open Fence

variable {d : Dialect} {w : Text} {qs : List Piece}

theorem comment_open? (d : Dialect) (t : Text) : Fence.open? (d.comment t) = none := by
  cases d
  · exact open?_eq_none_of_head (c := '\x7b') rfl (by decide)
  · exact open?_eq_none_of_head (c := '<') rfl (by decide)

theorem guardFence_of_none (prose : Fence.open? w = none) : Line.guardFence w = w := by
  simp [Line.guardFence, prose]

theorem Fence.Opening.guardFence {fence : Fence} {blanks info : Text} (opening : fence.Opening w blanks info) :
    Line.guardFence w = blanks ++ ('\\' :: (List.replicate fence.length fence.marker ++ info)) := by
  obtain ⟨n, long⟩ := opening.exists_length
  have solid := opening.solid
  have stop : ∀ c, (List.replicate fence.length fence.marker ++ info).head? = some c → Text.isBlank c = false := by
    intro c first
    obtain rfl : fence.marker = c := by simpa [long, List.replicate_succ] using first
    exact solid
  unfold Line.guardFence
  rw [if_pos (by rw [opening.open?]; rfl), opening.shape, Text.takeWhile_stop opening.blank stop,
    Text.dropWhile_stop opening.blank stop]

/-- The guard leaves a line as it is, or writes one backslash between its blanks and what stands behind them. -/
theorem guardFence_cases (w : Text) : Line.guardFence w = w ∨
    ∃ blanks marks, Text.Blank blanks ∧ w = blanks ++ marks ∧ Line.guardFence w = blanks ++ ('\\' :: marks) := by
  cases found : Fence.open? w with
  | none => exact .inl (guardFence_of_none found)
  | some fence =>
    obtain ⟨blanks, info, opening⟩ := open?_sound found
    exact .inr ⟨blanks, _, opening.blank, opening.shape, Fence.Opening.guardFence opening⟩

theorem guardFence_of_head (front : (Text.trimStart (Line.guardFence w)).head? ≠ some '\\') : Line.guardFence w = w := by
  rcases guardFence_cases w with same | ⟨blanks, marks, blank, -, guarded⟩
  · exact same
  · rw [guarded, Text.trimStart_of_blank blank] at front
    exact absurd rfl front

/-- The guard keeps every line from opening a fence. -/
theorem open?_guardFence (w : Text) : Fence.open? (Line.guardFence w) = none := by
  cases found : Fence.open? w with
  | none => rw [guardFence_of_none found, found]
  | some fence =>
    obtain ⟨blanks, info, opening⟩ := open?_sound found
    rw [Fence.Opening.guardFence opening]
    have body : Text.trimStart (blanks ++ ('\\' :: (List.replicate fence.length fence.marker ++ info))) =
        '\\' :: (List.replicate fence.length fence.marker ++ info) := by
      rw [Text.trimStart_of_blank opening.blank]
      rfl
    exact open?_eq_none_of_head body (by decide)

structure Alike (d : Dialect) (qs qs' : List Piece) : Prop where
  tags : qs'.filterMap Piece.tag? = qs.filterMap Piece.tag?
  problem : (∃ p ∈ qs, p.problem? = some .dataUrl) → ∃ p ∈ qs', p.problem? = some .dataUrl
  literal : (∀ p ∈ qs, p.Literal d) → ∀ p ∈ qs', p.Literal d

theorem alike_of_flat {front front' back : List Piece} (flat : Flat d front) (flat' : Flat d front') :
    Alike d (front ++ back) (front' ++ back) := by
  refine ⟨?_, ?_, fun literal p member => ?_⟩
  · rw [List.filterMap_append, List.filterMap_append, flat.tags, flat'.tags]
  · rintro ⟨p, member, problem⟩
    rcases List.mem_append.mp member with member | member
    · have literal := (flat p member).1
      cases p <;> simp_all [Piece.Literal, Piece.problem?]
    · exact ⟨p, List.mem_append_right _ member, problem⟩
  · rcases List.mem_append.mp member with member | member
    · exact (flat' p member).1
    · exact literal p (List.mem_append_right _ member)

theorem reading_ticks {n : Nat} {info : Text} {q : Bool} {b : Option Char} (positive : 0 < n) (absent : '`' ∉ info)
    (back : Reading d [] false (some '`') info qs) :
    Reading d [] q b (List.replicate n '`' ++ info) (.plain (List.replicate n '`') :: qs) := by
  have plain : ∀ c ∈ info, isBacktick c = false := by
    intro c inside
    simpa [isBacktick] using fun same : c = '`' => absent (same ▸ inside)
  have stop : Unticked (info ++ []) := by
    rw [List.append_nil]
    intro c first
    exact plain c (List.mem_of_head? first)
  have free : Free n (info ++ []) := free_of_plain positive (by simpa using plain)
  refine .more (.ticks positive stop free) ?_
  have lead : (List.replicate n '`').all isLead = false := by
    obtain ⟨n, rfl⟩ := Nat.exists_eq_succ_of_ne_zero (Nat.ne_of_gt positive)
    simp [List.replicate_succ, isLead, Text.isBlank]
  have last : (List.replicate n '`').getLast? = some '`' := by
    rw [List.getLast?_replicate, if_neg (Nat.ne_of_gt positive)]
  rw [lead, last, Bool.and_false]
  exact back

/-- A line that opens a fence and the same line behind a backslash are read alike: the blanks, the run of markers, and
the rest as before. -/
theorem reading_opening {fence : Fence} {blanks info : Text} (opening : fence.Opening w blanks info) :
    ∃ front front' back, Reading d [] true none w (front ++ back) ∧ Flat d front ∧ Flat d front' ∧
      Reading d [] true none (blanks ++ ('\\' :: (List.replicate fence.length fence.marker ++ info))) (front' ++ back) := by
  have shape := opening.shape
  have marker := opening.marker
  have long := opening.long
  have plain := opening.plain
  obtain ⟨m, n⟩ := fence
  obtain ⟨n, rfl⟩ := Nat.exists_eq_succ_of_ne_zero (Nat.ne_of_gt (Nat.lt_of_lt_of_le (by decide : 0 < 3) long))
  have lead : ∀ {after}, Reading d after true none blanks (blanks.map fun c => .plain [c]) :=
    .ordinary fun c inside => isSpecial_of_isBlank (opening.blank c inside)
  have flat : Flat d (blanks.map fun c => .plain [c]) := flat_map blanks
  rcases marker with rfl | rfl
  · have back := reading_scan d false (some '`') info
    have long' : 0 < n := Nat.lt_of_succ_lt_succ (Nat.lt_of_lt_of_le (by decide : 1 < 3) long)
    refine ⟨_, _, scanFrom d 0 false (some '`') info, ?_, flat.append (flat_plain (List.replicate (n + 1) '`')),
      flat.append ((flat_plain ['\\', '`']).append (flat_plain (List.replicate n '`'))), ?_⟩
    · rw [shape, List.append_assoc]
      exact lead.append (reading_ticks (Nat.succ_pos n) (plain rfl) back)
    · rw [List.append_assoc]
      refine lead.append (.more (a := ['\\', '`']) (.escape (by decide)) ?_)
      exact reading_ticks long' (plain rfl) back
  · have back := reading_scan d false (some '~') (List.replicate n '~' ++ info)
    have step : ∀ {q : Bool}, (q && ['~'].all isLead) = false ∧ (q && ['\\', '~'].all isLead) = false := by decide
    refine ⟨_, _, scanFrom d 0 false (some '~') (List.replicate n '~' ++ info), ?_, flat.append (flat_plain ['~']), flat.append (flat_plain ['\\', '~']), ?_⟩
    · rw [shape, List.append_assoc]
      refine lead.append (.more (a := ['~']) (.plain (by cases d <;> decide)) ?_)
      rw [step.1]
      exact back
    · rw [List.append_assoc]
      refine lead.append (.more (a := ['\\', '~']) (.escape (by decide)) ?_)
      rw [step.2]
      exact back

/-- The guarded line is read like the line itself. -/
theorem reading_guardFence (reading : Reading d [] true none w qs) :
    ∃ qs', Reading d [] true none (Line.guardFence w) qs' ∧ Alike d qs qs' := by
  cases found : Fence.open? w with
  | none => exact ⟨qs, by rwa [guardFence_of_none found], ⟨rfl, id, id⟩⟩
  | some fence =>
    obtain ⟨blanks, info, opening⟩ := open?_sound found
    obtain ⟨front, front', back, here, flat, flat', guarded⟩ := reading_opening opening
    obtain rfl := reading.unique here
    exact ⟨front' ++ back, by rwa [Fence.Opening.guardFence opening], alike_of_flat flat flat'⟩

end Markup
end NotebookPages
