import NotebookPages.Text.Basic
import Mathlib.Data.List.TakeWhile

/-! Texts as lines. Splitting at newlines and joining with newlines are inverse to each other on
lists of lines that hold no newline, of which there is at least one. -/

namespace NotebookPages.Text

section Split

variable {α : Type} {sep : α → Bool}

theorem split_ne_nil (t : List α) : split sep t ≠ [] := by
  cases t with
  | nil => simp [split]
  | cons c t =>
    simp only [split]
    split
    · simp
    · split <;> simp

theorem not_sep_of_mem_split {t part : List α} (member : part ∈ split sep t) : ∀ c ∈ part, sep c = false := by
  induction t generalizing part with
  | nil =>
    obtain rfl : part = [] := by simpa [split] using member
    simp
  | cons c t ih =>
    simp only [split] at member
    split at member
    · rcases List.mem_cons.mp member with rfl | member
      · simp
      · exact ih member
    next plain =>
      split at member
      next none => exact absurd none (split_ne_nil t)
      next first others shape =>
        rcases List.mem_cons.mp member with rfl | member
        · intro d inside
          rcases List.mem_cons.mp inside with rfl | inside
          · simpa using plain
          · exact ih (by simp [shape]) d inside
        · exact ih (by simp [shape, member])

theorem mem_split_iff {c : α} {t : List α} (plain : sep c = false) : (∃ part ∈ split sep t, c ∈ part) ↔ c ∈ t := by
  induction t with
  | nil => simp [split]
  | cons d t ih =>
    rw [split]
    split
    next here =>
      have other : c ≠ d := by
        rintro rfl
        rw [here] at plain
        cases plain
      simp [ih, other]
    next =>
      split
      next none => exact absurd none (split_ne_nil t)
      next first others shape =>
        rw [shape] at ih
        simp only [List.mem_cons, or_and_right, exists_or, exists_eq_left] at ih ⊢
        rw [or_assoc, ih]

theorem split_append_sep {c : α} (here : sep c = true) (a b : List α) :
    split sep (a ++ c :: b) = split sep a ++ split sep b := by
  induction a with
  | nil => simp [split, here]
  | cons d a ih =>
    simp only [List.cons_append, split]
    rw [ih]
    split
    · simp
    · cases shape : split sep a with
      | nil => exact absurd shape (split_ne_nil a)
      | cons first others => simp

theorem split_of_none {t : List α} (plain : ∀ c ∈ t, sep c = false) : split sep t = [t] := by
  induction t with
  | nil => rfl
  | cons c t ih =>
    rw [split, ih fun d inside => plain d (List.mem_cons_of_mem _ inside)]
    simp [plain c]

end Split

@[simp]
theorem joinWith_singleton (sep a : Text) : joinWith sep [a] = a := by
  simp [joinWith, List.intercalate]

theorem joinWith_cons (sep a : Text) {parts : List Text} (some : parts ≠ []) :
    joinWith sep (a :: parts) = a ++ (sep ++ joinWith sep parts) := by
  cases parts with
  | nil => exact absurd rfl some
  | cons b parts => simp [joinWith, List.intercalate]

theorem joinWith_append (sep : Text) {a b : List Text} (front : a ≠ []) (back : b ≠ []) :
    joinWith sep (a ++ b) = joinWith sep a ++ (sep ++ joinWith sep b) := by
  induction a with
  | nil => exact absurd rfl front
  | cons first a ih =>
    by_cases last : a = []
    · subst last
      simp [joinWith_cons sep first back]
    · rw [List.cons_append, joinWith_cons sep first (by simp [last]), ih last, joinWith_cons sep first last]
      simp

/-- A line holds no newline. -/
def IsLine (t : Text) : Prop := '\n' ∉ t

theorem splitLines_ne_nil (t : Text) : splitLines t ≠ [] := split_ne_nil t

theorem isLine_of_mem {t line : Text} (member : line ∈ splitLines t) : IsLine line := fun newline =>
  absurd (not_sep_of_mem_split member '\n' newline) (by decide)

theorem splitLines_append (a b : Text) : splitLines (a ++ '\n' :: b) = splitLines a ++ splitLines b :=
  split_append_sep (by decide) a b

theorem splitLines_line {t : Text} (line : IsLine t) : splitLines t = [t] :=
  split_of_none fun c inside => by
    have other : c ≠ '\n' := fun same => line (same ▸ inside)
    simpa using other

theorem splitLines_join {parts : List Text} (some : parts ≠ []) (lines : ∀ part ∈ parts, IsLine part) :
    splitLines (joinWith ['\n'] parts) = parts := by
  induction parts with
  | nil => exact absurd rfl some
  | cons first parts ih =>
    have alone := splitLines_line (lines first (by simp))
    by_cases last : parts = []
    · subst last
      simpa using alone
    · rw [joinWith_cons _ _ last]
      have others := ih last fun part member => lines part (List.mem_cons_of_mem _ member)
      rw [List.singleton_append, splitLines_append, alone, others, List.singleton_append]

theorem join_splitLines (t : Text) : joinWith ['\n'] (splitLines t) = t := by
  induction t with
  | nil => rfl
  | cons c t ih =>
    unfold splitLines at ih ⊢
    rw [split]
    split
    next newline =>
      obtain rfl : c = '\n' := by simpa using newline
      rw [joinWith_cons _ _ (split_ne_nil t), ih]
      rfl
    next =>
      cases shape : split (· == '\n') t with
      | nil => exact absurd shape (split_ne_nil t)
      | cons first others =>
        rw [shape] at ih
        by_cases last : others = []
        · subst last
          simpa using ih
        · rw [joinWith_cons _ _ last] at ih ⊢
          simpa using ih

theorem splitLines_newline (t : Text) : splitLines ('\n' :: t) = [] :: splitLines t :=
  splitLines_append [] t

theorem splitLines_prepend {a : Text} (line : IsLine a) (t : Text) :
    ∃ first more, splitLines t = first :: more ∧ splitLines (a ++ t) = (a ++ first) :: more := by
  obtain ⟨first, more, shape⟩ := List.exists_cons_of_ne_nil (splitLines_ne_nil t)
  refine ⟨first, more, shape, ?_⟩
  induction a with
  | nil => exact shape
  | cons c a ih =>
    have plain : (c == '\n') = false := by
      simpa using fun same : c = '\n' => line (same ▸ List.mem_cons_self)
    have rest := ih fun inside => line (List.mem_cons_of_mem c inside)
    unfold splitLines at rest ⊢
    rw [List.cons_append, split, plain, rest]
    rfl

theorem splitLines_postpend (t : Text) {a : Text} (line : IsLine a) :
    ∃ front last, splitLines t = front ++ [last] ∧ splitLines (t ++ a) = front ++ [last ++ a] := by
  induction t with
  | nil => exact ⟨[], [], rfl, splitLines_line line⟩
  | cons c t ih =>
    obtain ⟨front, last, shape, whole⟩ := ih
    by_cases newline : c = '\n'
    · subst newline
      exact ⟨[] :: front, last, by rw [splitLines_newline, shape]; rfl, by
        rw [List.cons_append, splitLines_newline, whole]; rfl⟩
    · have alone : IsLine [c] := by simpa [IsLine] using Ne.symm newline
      obtain ⟨first, more, here, there⟩ := splitLines_prepend alone t
      obtain ⟨first', more', here', there'⟩ := splitLines_prepend alone (t ++ a)
      rw [List.singleton_append] at there there'
      cases front with
      | nil =>
        rw [shape] at here
        rw [whole] at here'
        obtain ⟨rfl, rfl⟩ := List.cons.inj here
        obtain ⟨rfl, rfl⟩ := List.cons.inj here'
        exact ⟨[], [c] ++ last, there, by rw [List.cons_append, there']; simp⟩
      | cons line front =>
        rw [shape] at here
        rw [whole] at here'
        obtain ⟨rfl, rfl⟩ := List.cons.inj here
        obtain ⟨rfl, rfl⟩ := List.cons.inj here'
        exact ⟨([c] ++ line) :: front, last, there, there'⟩

theorem infix_of_mem_splitLines {t line : Text} (member : line ∈ splitLines t) : line <:+: t := by
  obtain ⟨front, back, shape⟩ := List.append_of_mem member
  have whole := join_splitLines t
  rw [shape] at whole
  by_cases start : front = []
  · subst start
    by_cases stop : back = []
    · subst stop
      rw [List.nil_append, joinWith_singleton] at whole
      exact ⟨[], [], by rw [whole]; simp⟩
    · rw [List.nil_append, joinWith_cons _ _ stop] at whole
      exact ⟨[], _, whole⟩
  · rw [joinWith_append _ start (List.cons_ne_nil line back)] at whole
    by_cases stop : back = []
    · subst stop
      rw [joinWith_singleton] at whole
      exact ⟨joinWith ['\n'] front ++ ['\n'], [], by rw [List.append_nil, List.append_assoc]; exact whole⟩
    · rw [joinWith_cons _ _ stop] at whole
      exact ⟨joinWith ['\n'] front ++ ['\n'], _, by rw [List.append_assoc, List.append_assoc]; exact whole⟩

theorem flatten_endedLines (t : Text) : (endedLines t).flatten = t := by
  induction t with
  | nil => rfl
  | cons c t ih =>
    rw [endedLines]
    split
    · simp [ih]
    · split
      next none => simp [none] at ih; simp [ih]
      next first others shape => rw [shape] at ih; simpa using ih

theorem endedLines_line {a : Text} (line : IsLine a) (b : Text) : endedLines (a ++ '\n' :: b) = (a ++ ['\n']) :: endedLines b := by
  induction a with
  | nil => rfl
  | cons c a ih =>
    have plain : (c == '\n') = false := by
      simpa using fun same : c = '\n' => line (same ▸ List.mem_cons_self)
    rw [List.cons_append, endedLines, plain, ih fun inside => line (List.mem_cons_of_mem c inside)]
    rfl

theorem mem_joinWith {c : Char} {sep : Text} {parts : List Text} (member : c ∈ joinWith sep parts) : c ∈ sep ∨ ∃ part ∈ parts, c ∈ part := by
  induction parts with
  | nil => cases member
  | cons first parts ih =>
    by_cases last : parts = []
    · subst last
      rw [joinWith_singleton] at member
      exact Or.inr ⟨first, List.mem_cons_self, member⟩
    · rw [joinWith_cons _ _ last] at member
      rcases List.mem_append.mp member with member | member
      · exact Or.inr ⟨first, List.mem_cons_self, member⟩
      · rcases List.mem_append.mp member with member | member
        · exact Or.inl member
        · rcases ih member with inside | ⟨part, inside, member⟩
          · exact Or.inl inside
          · exact Or.inr ⟨part, List.mem_cons_of_mem first inside, member⟩

theorem mem_joinWith_of_mem {c : Char} (sep : Text) {part : Text} {parts : List Text} (member : part ∈ parts) (inside : c ∈ part) :
    c ∈ joinWith sep parts := by
  induction parts with
  | nil => cases member
  | cons first parts ih =>
    by_cases last : parts = []
    · subst last
      rw [joinWith_singleton]
      exact List.mem_singleton.mp member ▸ inside
    · rw [joinWith_cons _ _ last]
      rcases List.mem_cons.mp member with rfl | member
      · exact List.mem_append_left _ inside
      · exact List.mem_append_right _ (List.mem_append_right _ (ih member))

theorem endedLines_append {a : Text} (ends : a ≠ [] → a.getLast? = some '\n') (b : Text) :
    endedLines (a ++ b) = endedLines a ++ endedLines b := by
  induction a with
  | nil => rfl
  | cons c a ih =>
    have later := ih fun some => by
      have last := ends (List.cons_ne_nil c a)
      rwa [List.getLast?_cons_of_ne_nil some] at last
    rw [List.cons_append, endedLines, endedLines, later]
    split
    · rfl
    next plain =>
      cases shape : endedLines a with
      | cons first others => rfl
      | nil =>
        have empty := flatten_endedLines a
        rw [shape] at empty
        subst empty
        simp at ends
        simp [ends] at plain

/-- A text can be divided between two of its lines. -/
theorem endedLines_divide {t : Text} {front back : List Text} (whole : endedLines t = front ++ back) (some : back ≠ []) :
    (front.flatten ≠ [] → front.flatten.getLast? = Option.some '\n') ∧ endedLines front.flatten = front := by
  induction t generalizing front with
  | nil =>
    rw [endedLines, eq_comm, List.append_eq_nil_iff] at whole
    exact absurd whole.2 some
  | cons c t ih =>
    cases front with
    | nil => exact ⟨fun other => absurd rfl other, rfl⟩
    | cons first front =>
      rw [endedLines] at whole
      split at whole
      next newline =>
        obtain ⟨rfl, rest⟩ := List.cons.inj whole
        obtain rfl : c = '\n' := by simpa using newline
        obtain ⟨last, again⟩ := ih rest
        refine ⟨fun _ => ?_, ?_⟩
        · by_cases empty : front.flatten = []
          · simp [empty]
          · simp [List.getLast?_cons_of_ne_nil empty, last empty]
        · simp [endedLines, again]
      next plain =>
        split at whole
        next =>
          have rest : [] = front ++ back := (List.cons.inj whole).2
          exact absurd (List.append_eq_nil_iff.mp rest.symm).2 some
        next line others shape =>
          obtain ⟨rfl, rest⟩ := List.cons.inj whole
          obtain ⟨last, again⟩ := @ih (line :: front) (by rw [shape, rest]; rfl)
          have here : line ++ front.flatten ≠ [] := by
            intro empty
            rw [List.flatten_cons, empty] at again
            cases again
          rw [List.flatten_cons] at last again
          refine ⟨fun _ => ?_, ?_⟩
          · rw [List.flatten_cons, List.cons_append, List.getLast?_cons_of_ne_nil here]
            exact last here
          · rw [List.flatten_cons, List.cons_append, endedLines, if_neg plain, again]

/-- The lines with their ends are the lines, all but the last of them ended, and a last one that holds nothing is left out. -/
theorem endedLines_of_splitLines (t : Text) :
    ∃ front last, splitLines t = front ++ [last] ∧ endedLines t = front.map Text.line ++ if last = [] then [] else [last] := by
  induction t with
  | nil => exact ⟨[], [], rfl, rfl⟩
  | cons c t ih =>
    obtain ⟨front, last, lines, ended⟩ := ih
    by_cases newline : c = '\n'
    · subst newline
      refine ⟨[] :: front, last, by rw [splitLines_newline, lines]; rfl, ?_⟩
      rw [endedLines, ended]
      rfl
    · have plain : ¬ (c == '\n') = true := by simpa using newline
      have alone : IsLine [c] := by simpa [IsLine] using Ne.symm newline
      obtain ⟨first, more, here, there⟩ := splitLines_prepend alone t
      rw [lines] at here
      cases front with
      | nil =>
        obtain ⟨rfl, rfl⟩ := List.cons.inj here
        refine ⟨[], c :: last, there, ?_⟩
        rw [endedLines, if_neg plain, ended]
        cases last with
        | nil => rfl
        | cons d last => rfl
      | cons line front =>
        obtain ⟨rfl, rfl⟩ := List.cons.inj here
        refine ⟨(c :: line) :: front, last, there, ?_⟩
        rw [endedLines, if_neg plain, ended]
        rfl

/-- A text that ends its last line stands in front of every other text with all of its lines. -/
theorem splitLines_append_of_ended {a : Text} (ends : a ≠ [] → a.getLast? = some '\n') :
    ∃ front, front.length = (endedLines a).length ∧ ∀ b, splitLines (a ++ b) = front ++ splitLines b := by
  rcases List.eq_nil_or_concat a with rfl | ⟨a, c, rfl⟩
  · exact ⟨[], rfl, fun _ => rfl⟩
  · obtain rfl : c = '\n' := by simpa using ends (by simp)
    obtain ⟨front, last, lines, ended⟩ := endedLines_of_splitLines (a ++ ['\n'])
    rw [splitLines_append] at lines
    obtain ⟨rfl, same⟩ := List.append_inj' lines rfl
    obtain rfl : [] = last := (List.cons.inj same).1
    refine ⟨splitLines a, by simp [ended], fun b => ?_⟩
    rw [List.concat_eq_append, List.append_assoc]
    exact splitLines_append a b

end NotebookPages.Text
