import NotebookPages.Page.Convert
import NotebookPages.Proofs.Text.Cut
import NotebookPages.Proofs.Text.Lines

/-! A header stays the header of every document it is put in front of. Where it ends depends on its own lines only,
unless its last line has no end and more text is put behind it. -/

namespace NotebookPages.Document

variable {text header body mark rest : Text} {lines front back : List Text}

theorem cutClosing_eq (found : cutClosing lines = some (front, back)) :
    lines = front ++ back ∧ ∀ other, cutClosing (front ++ other) = some (front, other) := by
  induction lines generalizing front with
  | nil => cases found
  | cons line lines ih =>
    rw [cutClosing] at found
    split at found
    next closing =>
      cases found
      exact ⟨rfl, fun other => by rw [List.singleton_append, cutClosing, if_pos closing]⟩
    next inside =>
      obtain ⟨⟨front', back'⟩, later, same⟩ := Option.map_eq_some_iff.mp found
      cases same
      obtain ⟨shape, again⟩ := ih later
      refine ⟨by rw [shape]; rfl, fun other => ?_⟩
      rw [List.cons_append, cutClosing, if_neg inside, again]
      rfl

theorem opening?_eq_some_iff : opening? text = some (mark, rest) ↔
    (mark = ['-', '-', '-', '\n'] ∨ mark = ['-', '-', '-', '\r', '\n']) ∧ text = mark ++ rest := by
  unfold opening?
  simp only [String.reduceToList, List.findSome?_cons, List.findSome?_nil]
  constructor
  · intro found
    split at found
    next pair first =>
      obtain ⟨rest', here, same⟩ := Option.map_eq_some_iff.mp first
      cases found
      cases same
      exact ⟨Or.inl rfl, Text.after?_eq_some_iff.mp here⟩
    next =>
      split at found
      next pair second =>
        obtain ⟨rest', here, same⟩ := Option.map_eq_some_iff.mp second
        cases found
        cases same
        exact ⟨Or.inr rfl, Text.after?_eq_some_iff.mp here⟩
      next => cases found
  · rintro ⟨rfl | rfl, rfl⟩
    · rw [Text.after?_eq_some_iff.mpr rfl]
      rfl
    · have other : Text.after? ['-', '-', '-', '\n'] (['-', '-', '-', '\r', '\n'] ++ rest) = none := by
        cases found : Text.after? ['-', '-', '-', '\n'] (['-', '-', '-', '\r', '\n'] ++ rest) with
        | none => rfl
        | some after =>
          have shape := Text.after?_eq_some_iff.mp found
          simp at shape
      rw [other, Text.after?_eq_some_iff.mpr rfl]
      rfl

theorem split_eq_some (found : split text = (some header, body)) :
    ∃ mark front back, opening? text = some (mark, front.flatten ++ back.flatten) ∧
      Text.endedLines (front.flatten ++ back.flatten) = front ++ back ∧ header = mark ++ front.flatten ∧ body = back.flatten ∧
      ∀ other, cutClosing (front ++ other) = some (front, other) := by
  unfold split at found
  split at found
  next => cases found
  next mark rest opened =>
    split at found
    next => cases found
    next front back closed =>
      cases found
      obtain ⟨shape, again⟩ := cutClosing_eq closed
      have whole : rest = front.flatten ++ back.flatten := by
        rw [← Text.flatten_endedLines rest, shape, List.flatten_append]
      exact ⟨mark, front, back, by rw [opened, whole], by rw [← whole, shape], rfl, rfl, again⟩

/-- A document is its header and its body. -/
theorem append_of_split (found : split text = (some header, body)) : text = header ++ body := by
  obtain ⟨mark, front, back, opened, -, rfl, rfl, -⟩ := split_eq_some found
  rw [List.append_assoc]
  exact (opening?_eq_some_iff.mp opened).2

/-- In front of another body the header is found again. -/
theorem split_append (found : split text = (some header, body)) {other : Text} (follows : body = [] → other = []) :
    split (header ++ other) = (some header, other) := by
  by_cases empty : body = []
  · rw [follows empty]
    rw [← append_of_split (empty ▸ found), ← empty]
    exact found
  · obtain ⟨mark, front, back, opened, lines, rfl, rfl, again⟩ := split_eq_some found
    have some : back ≠ [] := fun none => empty (by rw [none]; rfl)
    obtain ⟨ends, own⟩ := Text.endedLines_divide lines some
    have opened' : opening? (mark ++ (front.flatten ++ other)) = Option.some (mark, front.flatten ++ other) :=
      opening?_eq_some_iff.mpr ⟨(opening?_eq_some_iff.mp opened).1, rfl⟩
    unfold split
    rw [List.append_assoc, opened']
    simp only [Text.endedLines_append ends, own, again, Text.flatten_endedLines]

end NotebookPages.Document
