import NotebookPages.Proofs.Text.Lines
import NotebookPages.Proofs.Text.Trim

/-! Lines with blanks around them and blank lines among them. Blanks around a text do no more to its lines. -/

namespace NotebookPages.Text

/-- The first lines are the second ones with blanks around some of them and blank lines in between. -/
inductive Padded : List Text → List Text → Prop where
  | nil : Padded [] []
  | blank {line : Text} {a b : List Text} (blank : Blank line) (rest : Padded a b) : Padded (line :: a) b
  | line {u w v : Text} {a b : List Text} (front : Blank u) (back : Blank v) (rest : Padded a b) :
      Padded ((u ++ (w ++ v)) :: a) (w :: b)

variable {t u v : Text} {a b c blanks : List Text}

theorem Padded.same {w : Text} (rest : Padded a b) : Padded (w :: a) (w :: b) := by
  have line : Padded (([] ++ (w ++ [])) :: a) (w :: b) := .line blank_nil blank_nil rest
  rwa [List.nil_append, List.append_nil] at line

theorem padded_refl (a : List Text) : Padded a a := by
  induction a with
  | nil => exact .nil
  | cons line a ih => exact ih.same

theorem Padded.append (first : Padded a b) (second : Padded c blanks) : Padded (a ++ c) (b ++ blanks) := by
  induction first with
  | nil => exact second
  | blank blank _ ih => exact .blank blank ih
  | line front back _ ih => exact .line front back ih

theorem padded_blanks (all : ∀ line ∈ blanks, Blank line) : Padded blanks [] := by
  induction blanks with
  | nil => exact .nil
  | cons line blanks ih => exact .blank (all line List.mem_cons_self) (ih fun other member => all other (List.mem_cons_of_mem line member))

theorem Padded.trans (first : Padded a b) (second : Padded b c) : Padded a c := by
  induction first generalizing c with
  | nil => exact second
  | blank blank _ ih => exact .blank blank (ih second)
  | @line u w v _ _ front back _ ih =>
    cases second with
    | blank blank rest => exact .blank (front.append (Blank.append blank back)) (ih rest)
    | @line u' w' v' _ _ front' back' rest =>
      have line := Padded.line (w := w') (front.append front') (Blank.append back' back) (ih rest)
      simpa using line

theorem blank_of_mem_splitLines (blank : Blank t) {line : Text} (member : line ∈ splitLines t) : Blank line :=
  fun c inside => blank c ((infix_of_mem_splitLines member).subset inside)

theorem padded_start (front : Blank u) (t : Text) : Padded (splitLines (u ++ t)) (splitLines t) := by
  induction u with
  | nil => exact padded_refl _
  | cons c u ih =>
    have later := ih fun d inside => front d (List.mem_cons_of_mem c inside)
    by_cases newline : c = '\n'
    · subst newline
      rw [List.cons_append, splitLines_newline]
      exact .blank blank_nil later
    · have alone : IsLine [c] := by simpa [IsLine] using Ne.symm newline
      have single : Blank [c] := fun d inside => front d (List.mem_of_mem_head? (by simpa [eq_comm] using inside))
      obtain ⟨first, more, shape, whole⟩ := splitLines_prepend alone (u ++ t)
      rw [List.singleton_append] at whole
      rw [List.cons_append, whole]
      refine Padded.trans ?_ (shape ▸ later)
      have line := Padded.line (w := first) single blank_nil (padded_refl more)
      rwa [List.append_nil] at line

theorem padded_end (t : Text) (back : Blank v) : Padded (splitLines (t ++ v)) (splitLines t) := by
  induction v generalizing t with
  | nil => rw [List.append_nil]; exact padded_refl _
  | cons c v ih =>
    have rest : Blank v := fun d inside => back d (List.mem_cons_of_mem c inside)
    by_cases newline : c = '\n'
    · subst newline
      have blanks := padded_blanks fun line member => blank_of_mem_splitLines rest member
      have whole := (padded_refl (splitLines t)).append blanks
      rwa [← splitLines_append, List.append_nil] at whole
    · have alone : IsLine [c] := by simpa [IsLine] using Ne.symm newline
      have single : Blank [c] := fun d inside => back d (List.mem_of_mem_head? (by simpa [eq_comm] using inside))
      have whole := ih (t ++ [c]) rest
      rw [List.append_assoc, List.singleton_append] at whole
      apply whole.trans
      obtain ⟨front, last, shape, one⟩ := splitLines_postpend t alone
      rw [shape, one]
      exact (padded_refl front).append (.line blank_nil single .nil)

theorem padded_splitLines (front : Blank u) (t : Text) (back : Blank v) : Padded (splitLines (u ++ (t ++ v))) (splitLines t) :=
  (padded_start front (t ++ v)).trans (padded_end t back)

end NotebookPages.Text
