import NotebookPages.Proofs.Document.Splitting
import NotebookPages.Proofs.Text.Trim

/-! A generated header is found again in front of every body. Its fields are lines of their own, and none of them is a
delimiter. -/

namespace NotebookPages

namespace Header

variable {c : Char}

theorem isLine_escape (value : Text) : Text.IsLine (escape value) := by
  intro newline
  rcases Text.mem_joinWith newline with inside | ⟨part, member, inside⟩
  · revert inside
    decide
  · obtain ⟨word, words, rfl⟩ := List.mem_map.mp member
    obtain ⟨c, here, written⟩ := List.mem_flatMap.mp inside
    have solid := Text.not_sep_of_mem_split (List.mem_of_mem_filter words) c here
    rw [Bool.or_eq_false_iff] at solid
    unfold escapeChar at written
    split at written
    all_goals simp at written
    all_goals
      subst written
      exact absurd solid.1 (by decide)

theorem isLine_ofInt (n : Int) : Text.IsLine (Text.ofInt n) := by
  have digits : ∀ m : Nat, '\n' ∉ Nat.toDigits 10 m := by
    intro m inside
    exact absurd (Nat.isDigit_of_mem_toDigits (by decide) (by decide) inside) (by decide)
  unfold Text.IsLine Text.ofInt
  rw [show toString n = n.repr from rfl, Int.repr_eq_if]
  split
  · simpa using digits _
  · simpa using digits _

theorem trimEnd_ne_delimiter (other : c ≠ '-') (rest : Text) : Text.trimEnd (c :: rest) ≠ delimiter := by
  intro same
  obtain ⟨v, shape, -, -⟩ := Text.dropEndWhile_split Text.isBlank (c :: rest)
  rw [show Text.dropEndWhile Text.isBlank (c :: rest) = delimiter from same] at shape
  exact other (List.cons.inj shape).1

theorem endedLines_field {key : Text} (named : Text.IsLine key) (value rest : Text) :
    Text.endedLines (field key value ++ rest) = field key value :: Text.endedLines rest := by
  have line : Text.IsLine (key ++ ": \"" ++ escape value ++ "\"") := by
    intro newline
    rw [List.mem_append, List.mem_append, List.mem_append] at newline
    rcases newline with ((inside | inside) | inside) | inside
    · exact named inside
    · revert inside
      decide
    · exact isLine_escape value inside
    · revert inside
      decide
  rw [field, Text.line, List.append_assoc, List.singleton_append]
  exact Text.endedLines_line line rest

def positionLines : Option Int → List Text
  | some n => [Text.line ("sidebar_position: " ++ Text.ofInt n)]
  | none => []

theorem endedLines_position (position : Option Int) (rest : Text) :
    Text.endedLines ((positionLines position).flatten ++ rest) = positionLines position ++ Text.endedLines rest := by
  cases position with
  | none => rfl
  | some n =>
    have line : Text.IsLine ("sidebar_position: " ++ Text.ofInt n) := by
      intro newline
      rcases List.mem_append.mp newline with inside | inside
      · revert inside
        decide
      · exact isLine_ofInt n inside
    rw [positionLines, List.flatten_singleton, Text.line, List.append_assoc, List.singleton_append, Text.endedLines_line line]
    rfl

def fieldLines (h : Header) : List Text :=
  field "title" h.title :: field "description" h.description :: (positionLines h.position ++ [Text.line delimiter])

theorem render_eq (h : Header) : h.render = Text.line delimiter ++ (h.fieldLines.flatten ++ ['\n']) := by
  cases position : h.position <;> simp [render, fieldLines, positionLines, position]

theorem endedLines_fieldLines (h : Header) (rest : Text) :
    Text.endedLines (h.fieldLines.flatten ++ rest) = h.fieldLines ++ Text.endedLines rest := by
  have title : Text.IsLine ("title" : Text) := by unfold Text.IsLine; decide
  have description : Text.IsLine ("description" : Text) := by unfold Text.IsLine; decide
  have last : Text.endedLines (Text.line delimiter ++ rest) = Text.line delimiter :: Text.endedLines rest := rfl
  simp only [fieldLines, List.flatten_cons, List.flatten_append, List.flatten_nil, List.append_nil, List.append_assoc,
    endedLines_field title, endedLines_field description, endedLines_position, last, List.cons_append, List.nil_append]

theorem cutClosing_fieldLines (h : Header) (rest : List Text) : Document.cutClosing (h.fieldLines ++ rest) = some (h.fieldLines, rest) := by
  have skip : ∀ {line : Text} {lines front back : List Text}, Text.trimEnd line ≠ delimiter →
      Document.cutClosing lines = some (front, back) → Document.cutClosing (line :: lines) = some (line :: front, back) := by
    intro line lines front back other found
    rw [Document.cutClosing, if_neg other, found]
    rfl
  have last : Document.cutClosing (Text.line delimiter :: rest) = some ([Text.line delimiter], rest) := by
    rw [Document.cutClosing, if_pos (by decide)]
  have position : Document.cutClosing (positionLines h.position ++ [Text.line delimiter] ++ rest) =
      some (positionLines h.position ++ [Text.line delimiter], rest) := by
    cases h.position with
    | none => exact last
    | some n => exact skip (trimEnd_ne_delimiter (c := 's') (by decide) _) last
  exact skip (trimEnd_ne_delimiter (c := 't') (by decide) _) (skip (trimEnd_ne_delimiter (c := 'd') (by decide) _) position)

/-- A generated header is split off again; the blank line after it belongs to the body. -/
theorem split_render_append (h : Header) (body : Text) :
    Document.split (h.render ++ body) = (some (Text.line delimiter ++ h.fieldLines.flatten), '\n' :: body) := by
  have opened : Document.opening? (h.render ++ body) = some (['-', '-', '-', '\n'], h.fieldLines.flatten ++ '\n' :: body) :=
    Document.opening?_eq_some_iff.mpr ⟨Or.inl rfl, by rw [render_eq]; simp [Text.line, delimiter]⟩
  unfold Document.split
  rw [opened]
  simp only [endedLines_fieldLines, cutClosing_fieldLines, Text.flatten_endedLines]
  rfl

end Header
end NotebookPages
