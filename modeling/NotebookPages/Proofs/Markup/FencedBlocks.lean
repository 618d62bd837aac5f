import NotebookPages.Proofs.Markup.Fences
import NotebookPages.Proofs.Text.Padding

/-! Fences over the lines of a text. Blanks around a text make no difference to the fence that it leaves open, and a
block of code closes the fence that it opens. -/

namespace NotebookPages.Fence

variable {held : Option Fence} {fence : Fence} {line info u v t content : Text} {a b lines inner : List Text}

/-- Fences are as long as the ones that lines open. -/
def Long (held : Option Fence) : Prop := ∀ fence, held = some fence → 3 ≤ fence.length

theorem long_none : Long none := fun _ some => by cases some

theorem Long.next (long : Long held) (line : Text) : Long (next held line) := by
  intro fence opened
  cases held with
  | none =>
    obtain ⟨_, _, opening⟩ := open?_sound opened
    exact opening.long
  | some outer =>
    rw [Fence.next] at opened
    split at opened
    · cases opened
    · exact long fence opened

theorem after_append (held : Option Fence) (a b : List Text) : after held (a ++ b) = after (after held a) b :=
  List.foldl_append

theorem after_cons (held : Option Fence) (line : Text) (b : List Text) : after held (line :: b) = after (next held line) b := rfl

theorem Long.after (long : Long held) (lines : List Text) : Long (after held lines) := by
  induction lines generalizing held with
  | nil => exact long
  | cons line lines ih => exact ih (long.next line)

theorem open?_of_blank_start (before : Text.Blank u) (t : Text) : open? (u ++ t) = open? t := by
  unfold open?
  rw [Text.trimStart_of_blank before]

theorem open?_of_blank (blank : Text.Blank t) : open? t = none := by
  unfold open?
  rw [Text.trimStart_eq_nil_iff.mpr blank]

theorem open?_of_blank_end (t : Text) (after : Text.Blank v) : open? (t ++ v) = open? t := by
  by_cases blank : Text.Blank t
  · rw [open?_of_blank blank, open?_of_blank (blank.append after)]
  · have solid : Text.trimStart t ≠ [] := fun empty => blank (Text.trimStart_eq_nil_iff.mp empty)
    obtain ⟨m, rest, shape⟩ := List.exists_cons_of_ne_nil solid
    unfold open?
    rw [Text.trimStart_append solid, shape, List.cons_append]
    simp only
    split
    next marker =>
      have other : ∀ c ∈ v, (c == m) = false := by
        intro c inside
        rw [Bool.or_eq_true, beq_iff_eq, beq_iff_eq] at marker
        have here := after c inside
        rcases marker with rfl | rfl
        · simpa using fun same : c = '`' => absurd (same ▸ here) (by decide)
        · simpa using fun same : c = '~' => absurd (same ▸ here) (by decide)
      have none : v.takeWhile (· == m) = [] := by
        cases v with
        | nil => rfl
        | cons c v => simp [other c List.mem_cons_self]
      have all : v.dropWhile (· == m) = v := by
        have whole := List.takeWhile_append_dropWhile (p := (· == m)) (l := v)
        rwa [none] at whole
      have run : (rest ++ v).takeWhile (· == m) = rest.takeWhile (· == m) := by
        rw [List.takeWhile_append, none, List.append_nil]
        split
        next whole => exact ((List.takeWhile_prefix _).eq_of_length whole).symm
        next => rfl
      have tail : (rest ++ v).dropWhile (· == m) = rest.dropWhile (· == m) ++ v := by
        rw [List.dropWhile_append, all]
        split
        next empty => rw [List.isEmpty_iff.mp empty, List.nil_append]
        next => rfl
      have plain : (m == '`' && v.contains '`') = false := by
        cases tick : m == '`' with
        | false => rfl
        | true =>
          rw [beq_iff_eq] at tick
          simpa using fun inside => absurd (other '`' inside) (by simp [tick])
      simp only [run, tail, List.contains_append]
      rw [Bool.and_or_distrib_left, plain, Bool.or_false]
    next => rfl

theorem closes_of_blank (before : Text.Blank u) (after : Text.Blank v) : fence.closes (u ++ (t ++ v)) = fence.closes t := by
  unfold closes
  rw [Text.trim_of_blank before after]

theorem next_of_blank (before : Text.Blank u) (after : Text.Blank v) : next held (u ++ (t ++ v)) = next held t := by
  cases held with
  | none => exact (open?_of_blank_start before _).trans (open?_of_blank_end t after)
  | some fence => rw [next, next, closes_of_blank before after]

theorem next_blank (long : Long held) (blank : Text.Blank t) : next held t = held := by
  cases held with
  | none => exact open?_of_blank blank
  | some fence =>
    have empty := Text.trim_eq_nil_of_blank blank
    have positive := long fence rfl
    have open' : fence.closes t = false := by
      simp [closes, empty]
      omega
    rw [next, open']
    rfl

theorem after_of_padded (padded : Text.Padded a b) (long : Long held) : after held a = after held b := by
  induction padded generalizing held with
  | nil => rfl
  | blank blank _ ih => rw [after_cons, next_blank long blank, ih long]
  | line front back _ ih => rw [after_cons, after_cons, next_of_blank front back, ih (long.next _)]

/-- Line by line two texts move the fence in the same way. -/
inductive InStep : Option Fence → List Text → List Text → Prop where
  | nil {held : Option Fence} : InStep held [] []
  | cons {held : Option Fence} {s t : Text} {a b : List Text} (same : next held s = next held t) (rest : InStep (next held t) a b) :
      InStep held (s :: a) (t :: b)

theorem InStep.after (inStep : InStep held a b) : after held a = after held b := by
  induction inStep with
  | nil => rfl
  | cons same _ ih => rw [after_cons, after_cons, same, ih]

theorem InStep.openLine? (inStep : InStep held a b) (opened : Option Nat) (number : Nat) :
    openLine? held opened number a = openLine? held opened number b := by
  induction inStep generalizing opened number with
  | nil => rfl
  | cons same _ ih =>
    rw [Fence.openLine?, Fence.openLine?, same]
    split
    next outside => rw [← outside, ih]
    next fence inside => rw [← inside, ih]

theorem le_longestRun (k : Nat) (t : Text) : k ≤ longestRun k t := by
  induction t generalizing k with
  | nil => exact Nat.le_refl k
  | cons c t ih =>
    rw [longestRun]
    split
    · exact Nat.le_of_succ_le (ih (k + 1))
    · exact Nat.le_max_left _ _

theorem longestRun_mono {k n : Nat} (le : k ≤ n) (t : Text) : longestRun k t ≤ longestRun n t := by
  induction t generalizing k n with
  | nil => exact le
  | cons c t ih =>
    rw [longestRun, longestRun]
    split
    · exact ih (Nat.succ_le_succ le)
    · omega

theorem longestRun_le_append (k : Nat) (u t : Text) : longestRun 0 t ≤ longestRun k (u ++ t) := by
  induction u generalizing k with
  | nil => exact longestRun_mono (Nat.zero_le k) t
  | cons c u ih =>
    rw [List.cons_append, longestRun]
    split
    · exact ih (k + 1)
    · exact Nat.le_trans (ih 0) (Nat.le_max_right _ _)

theorem le_longestRun_replicate (k n : Nat) (t : Text) : k + n ≤ longestRun k (List.replicate n '`' ++ t) := by
  induction n generalizing k with
  | zero => exact le_longestRun k t
  | succ n ih =>
    rw [List.replicate_succ, List.cons_append, longestRun, if_pos (by simp)]
    have later := ih (k + 1)
    omega

theorem le_longestRun_of_infix {n : Nat} (inside : List.replicate n '`' <:+: t) : n ≤ longestRun 0 t := by
  obtain ⟨u, v, rfl⟩ := inside
  have run := le_longestRun_replicate 0 n v
  have part := longestRun_le_append 0 u (List.replicate n '`' ++ v)
  rw [List.append_assoc]
  omega

theorem infix_of_closes (tick : fence.marker = '`') (closed : fence.closes line = true) :
    List.replicate fence.length '`' <:+: line := by
  rw [closes, Bool.and_eq_true, decide_eq_true_eq, tick] at closed
  obtain ⟨long, all⟩ := closed
  have run : Text.trim line = List.replicate (Text.trim line).length '`' :=
    List.eq_replicate_of_mem fun c inside => by simpa using List.all_eq_true.mp all c inside
  obtain ⟨n, more⟩ := Nat.exists_eq_add_of_le long
  rw [more, List.replicate_add] at run
  have start : List.replicate fence.length '`' <+: Text.trim line := ⟨List.replicate n '`', run.symm⟩
  exact start.isInfix.trans (Text.infix_trim line)

theorem after_of_prose (prose : ∀ line ∈ lines, open? line = none) : after none lines = none := by
  induction lines with
  | nil => rfl
  | cons line lines ih =>
    rw [after_cons, next, prose line List.mem_cons_self]
    exact ih fun other member => prose other (List.mem_cons_of_mem line member)

/-- The lines open the fence, hold the inner lines in it and close it. -/
structure Encloses (fence : Fence) (inner lines : List Text) : Prop where
  shape : ∃ first last, lines = first :: (inner ++ [last]) ∧ open? first = some fence ∧ fence.closes last = true
  held : ∀ line ∈ inner, fence.closes line = false

theorem after_held (held : ∀ line ∈ inner, fence.closes line = false) : after (some fence) inner = some fence := by
  induction inner with
  | nil => rfl
  | cons line inner ih =>
    rw [after_cons, next, held line List.mem_cons_self]
    exact ih fun line inside => held line (List.mem_cons_of_mem _ inside)

/-- Between its first line and its last the fence is open. -/
theorem Encloses.after_take (encloses : fence.Encloses inner lines) {number : Nat} (first : 0 < number) (last : number < lines.length) :
    after none (lines.take number) = some fence := by
  obtain ⟨start, stop, rfl, opened, -⟩ := encloses.shape
  obtain ⟨number, rfl⟩ := Nat.exists_eq_succ_of_ne_zero (Nat.ne_of_gt first)
  have within : number ≤ inner.length := by
    simp at last
    omega
  rw [List.take_succ_cons, List.take_append_of_le_length within, after_cons, next, opened]
  exact after_held fun line member => encloses.held line (List.mem_of_mem_take member)

theorem Encloses.after_eq_none (encloses : fence.Encloses inner lines) : after none lines = none := by
  obtain ⟨start, stop, rfl, opened, closed⟩ := encloses.shape
  rw [after_cons, next, opened, after_append, after_held encloses.held, after_cons, next, closed]
  rfl

def contentLines (content : Text) : List Text :=
  let body := Text.dropEndWhile (fun c => c == '\n' || c == '\r') content
  if body.isEmpty then [] else Text.splitLines body

theorem infix_of_mem_contentLines (member : line ∈ contentLines content) : line <:+: content := by
  obtain ⟨v, whole, -⟩ := Text.dropEndWhile_split (fun c => c == '\n' || c == '\r') content
  rw [contentLines] at member
  split at member
  · cases member
  · exact (Text.infix_of_mem_splitLines member).trans ⟨[], v, whole.symm⟩

theorem isLine_around (content : Text) : Text.IsLine (around content) := by
  simp [around, Text.IsLine]

theorem splitLines_block (info content : Text) : ∃ first more, Text.splitLines info = first :: more ∧
    Text.splitLines (block info content) = (around content ++ first) :: (more ++ contentLines content ++ [around content]) := by
  have body : block info content = around content ++ (info ++ '\n' :: (
      if (Text.dropEndWhile (fun c => c == '\n' || c == '\r') content).isEmpty then around content
      else Text.dropEndWhile (fun c => c == '\n' || c == '\r') content ++ '\n' :: around content)) := by
    unfold block
    simp only
    split <;> simp
  have inner : Text.splitLines (if (Text.dropEndWhile (fun c => c == '\n' || c == '\r') content).isEmpty then around content
      else Text.dropEndWhile (fun c => c == '\n' || c == '\r') content ++ '\n' :: around content) =
      contentLines content ++ [around content] := by
    rw [contentLines]
    split
    · exact Text.splitLines_line (isLine_around content)
    · rw [Text.splitLines_append, Text.splitLines_line (isLine_around content)]
  obtain ⟨first, more, shape, whole⟩ := Text.splitLines_prepend (isLine_around content) (info ++ '\n' :: (
      if (Text.dropEndWhile (fun c => c == '\n' || c == '\r') content).isEmpty then around content
      else Text.dropEndWhile (fun c => c == '\n' || c == '\r') content ++ '\n' :: around content))
  obtain ⟨first', more', named⟩ := List.exists_cons_of_ne_nil (Text.splitLines_ne_nil info)
  rw [Text.splitLines_append, inner, named, List.cons_append] at shape
  obtain ⟨rfl, rfl⟩ := List.cons.inj shape
  exact ⟨first', more', named, by rw [body, whole, List.append_assoc]⟩

/-- A block of code holds its content in the fence that its first line opens and its last line closes. -/
theorem block_encloses (plain : '`' ∉ info) (content : Text) :
    (⟨'`', (around content).length⟩ : Fence).Encloses ((Text.splitLines info).tail ++ contentLines content)
      (Text.splitLines (block info content)) := by
  obtain ⟨first, more, named, whole⟩ := splitLines_block info content
  have length : (around content).length = max (longestRun 0 content + 1) 3 := List.length_replicate
  have long : 3 ≤ (around content).length := by omega
  have beyond : longestRun 0 content < (around content).length := by omega
  have ticks : around content = List.replicate (around content).length '`' := by rw [length]; rfl
  have absent : ∀ line ∈ Text.splitLines info, '`' ∉ line :=
    fun line member inside => plain ((Text.infix_of_mem_splitLines member).subset inside)
  constructor
  · refine ⟨around content ++ first, around content, ?_, ?_, ?_⟩
    · rw [whole, named]
      rfl
    · have opening : (⟨'`', (around content).length⟩ : Fence).Opening (around content ++ first) [] first := by
        refine ⟨?_, by simp [Text.Blank], Or.inl rfl, long, ?_, fun _ => ?_⟩
        · rw [List.nil_append, ← ticks]
        · intro tick
          exact absent first (by simp [named]) (List.mem_of_head? tick)
        · exact absent first (by simp [named])
      exact opening.open?
    · have solid : Text.trim (around content) = around content :=
        Text.trim_of_solid fun c inside => by rw [(List.mem_replicate.mp inside).2]; decide
      rw [closes, solid]
      simp [around]
  · intro line member
    by_contra closed
    have run := infix_of_closes rfl (Bool.of_not_eq_false closed)
    rcases List.mem_append.mp member with member | member
    · refine absent line (List.mem_of_mem_tail member) (run.subset ?_)
      exact List.mem_replicate.mpr ⟨Nat.ne_of_gt (Nat.lt_of_lt_of_le (by decide) long), rfl⟩
    · have bound := le_longestRun_of_infix (run.trans (infix_of_mem_contentLines member))
      exact absurd beyond (Nat.not_lt.mpr bound)

end NotebookPages.Fence
