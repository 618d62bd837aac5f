import NotebookPages.Proofs.Markup.SecondPass
import NotebookPages.Proofs.Markup.Trimmed

/-! A line of prose by itself: what is written for it, and how the written line begins. What is kept begins as the source does,
and what is rewritten begins with a mark, so blanks and markers of a fence that are written first stand first in the source. -/

namespace NotebookPages

/-- Three tildes open a fence whatever follows them. -/
theorem Fence.open?_tildes {blanks line : Text} (blank : Text.Blank blanks) (starts : blanks ++ ['~', '~', '~'] <+: line) :
    Fence.open? line ≠ none := by
  obtain ⟨info, rfl⟩ := starts
  rw [List.append_assoc, Fence.open?, Text.trimStart_of_blank blank]
  simp [Text.trimStart, show Text.isBlank '~' = false by decide]

theorem Fence.Opening.tildes {fence : Fence} {line blanks info : Text} (opening : fence.Opening line blanks info)
    (tilde : fence.marker = '~') : blanks ++ ['~', '~', '~'] <+: line := by
  obtain ⟨n, long⟩ : ∃ n, fence.length = n + 3 := Nat.exists_eq_add_of_le' opening.long
  have shape := opening.shape
  rw [tilde, long] at shape
  exact ⟨List.replicate n '~' ++ info, by rw [shape]; simp [List.replicate_succ]⟩

namespace Markup

open Piece

variable {rules : Rules} {d : Dialect} {q : Bool} {b last : Option Char} {e : Char} {s t w x after : Text} {ps : List Piece}
  {flags : List Bool} {afterText : Bool} {fence : Fence} {blanks info : Text}

/-- The character is read as itself and begins nothing that is written for something else. -/
def Echoes (d : Dialect) (c : Char) : Prop := isSpecial d c = false ∧ isWrittenMark c = false

theorem echoes_of_isBlank {c : Char} (blank : Text.isBlank c = true) : Echoes d c := by
  refine ⟨isSpecial_of_isBlank blank, ?_⟩
  cases mark : isWrittenMark c with
  | false => rfl
  | true =>
    have marks : c ∈ ['\\', '&', '_', '[', '\x7b', '<'] := by simpa [isWrittenMark, or_assoc] using mark
    have solid : ∀ c ∈ ['\\', '&', '_', '[', '\x7b', '<'], Text.isBlank c = false := Text.forall_mem_of_all (by decide)
    rw [solid c marks] at blank
    cases blank

/-- Blanks and tildes are read as themselves. -/
theorem echoes_tildes (blank : Text.Blank blanks) : ∀ c ∈ blanks ++ ['~', '~'], Echoes d c := by
  intro c inside
  rcases List.mem_append.mp inside with inside | inside
  · exact echoes_of_isBlank (blank c inside)
  · obtain rfl : c = '~' := by simpa using inside
    cases d <;> exact ⟨by decide, by decide⟩

/-- Removed markup is wider than the blank in its place. -/
theorem two_le_width {p : Piece} {a r : Text} (token : Token d q b a r p) (removed : ∀ s v problem, p ≠ .text s v problem) :
    2 ≤ width d p := by
  cases token with
  | tag spelled =>
    obtain ⟨y, written⟩ := Tag.render_eq_cons spelled.wellFormed d
    rw [width, written]
    simp
  | declaration =>
    have angle := Char.utf8Size_pos '<'
    have bang := Char.utf8Size_pos '!'
    rw [width, Text.utf8Length, Text.utf8Length]
    omega
  | _ => exact absurd rfl (removed _ _ _)

/-- What a written line begins with is what its source begins with, unless markup is removed; then the line is shorter than
its pieces. -/
theorem prefix_of_weld (reading : Reading d after q b s ps) (echoes : ∀ c ∈ x, Echoes d c) (other : isWrittenMark e = false)
    (starts : x ++ [e] <+: weld d last false afterText (settle flags ps)) :
    x ++ [e] <+: s ∨ '<' ∈ s ∧ (weld d last false afterText (settle flags ps)).length < totalWidth d ps := by
  induction reading generalizing x last afterText flags with
  | done => simp [settle, weld] at starts
  | @more q b a r p ps token rest ih =>
    have length : ∀ {last afterText flags}, (weld d last true afterText (settle flags ps)).length ≤ totalWidth d ps + 1 :=
      length_weld_le rest
    -- the first character written is `e` or a character of `x`
    have first : ∀ {m : Char} {v w : Text}, isWrittenMark m = true → ¬ x ++ [e] <+: (m :: v) ++ w := by
      intro m v w mark starts
      cases x with
      | nil =>
        obtain rfl := (List.cons_prefix_cons.mp starts).1
        rw [other] at mark
        cases mark
      | cons c x =>
        obtain rfl := (List.cons_prefix_cons.mp starts).1
        rw [(echoes c List.mem_cons_self).2] at mark
        cases mark
    obtain ⟨p', flags', shape, settled⟩ := token.settle flags ps
    rw [settled] at starts ⊢
    cases shape with
    | kept =>
      obtain ⟨c, a, rfl⟩ := List.exists_cons_of_ne_nil token.ne_nil
      rw [weld_plain, space_of_tight, List.nil_append] at starts ⊢
      cases x with
      | nil =>
        obtain rfl := (List.cons_prefix_cons.mp starts).1
        exact Or.inl (List.cons_prefix_cons.mpr ⟨rfl, List.nil_prefix⟩)
      | cons m x =>
        obtain rfl := (List.cons_prefix_cons.mp starts).1
        obtain ⟨rfl, plain⟩ := token.eq_of_ordinary (echoes m List.mem_cons_self).1
        obtain ⟨echoes, later⟩ : (∀ c ∈ x, Echoes d c) ∧ _ :=
          ⟨fun c inside => echoes c (List.mem_cons_of_mem m inside), (List.cons_prefix_cons.mp starts).2⟩
        rcases ih echoes later with here | ⟨angle, short⟩
        · exact Or.inl (List.cons_prefix_cons.mpr ⟨rfl, here⟩)
        · refine Or.inr ⟨List.mem_append_right _ angle, ?_⟩
          rw [totalWidth, plain, List.length_append]
          exact Nat.add_lt_add_left short 1
    | rewritten replaces =>
      obtain ⟨m, v, rfl, mark⟩ := replaces.written
      rw [weld_text, space_of_tight, List.nil_append] at starts
      exact absurd starts (first mark)
    | tag spelled =>
      obtain ⟨v, written⟩ := Tag.render_eq_cons spelled.wellFormed d
      rw [weld_tag, written] at starts
      exact absurd starts (first (by decide))
    | @removed _ y hidden shape =>
      subst shape
      refine Or.inr ⟨by simp, ?_⟩
      have wide : 2 ≤ width d p := two_le_width token fun s v problem text => by
        subst text
        rw [settle_text] at settled
        rw [← (List.cons.inj settled).1] at hidden
        cases hidden
      have behind := @length last afterText flags'
      rw [weld_removed hidden, totalWidth]
      omega

theorem length_guardFence (opens : Fence.open? w ≠ none) : (Line.guardFence w).length = w.length + 1 := by
  obtain ⟨fence, found⟩ := Option.ne_none_iff_exists'.mp opens
  obtain ⟨blanks, info, opening⟩ := Fence.open?_sound found
  rw [Fence.Opening.guardFence opening]
  conv_rhs => rw [opening.shape]
  simp only [List.length_append, List.length_cons]
  omega

/-- A pass over one line of prose writes its pieces, or a note where they are too long. -/
theorem sanitize_line (rules : Rules) (oneLine : Text.IsLine t) (prose : Fence.open? t = none) : ∃ flags, sanitize rules t =
    if totalWidth rules.dialect (scanLine rules.dialect t) ≤ rules.maxLine
    then Line.guardFence (weld rules.dialect none false false (settle flags (scanLine rules.dialect t)))
    else rules.dialect.comment longLineNote := by
  have passed := passed_run rules t
  have outside : Fence.isProse none t = true := isProse_iff.mpr ⟨rfl, prose⟩
  rw [Text.splitLines_line oneLine] at passed
  rw [sanitize, Pass.output]
  generalize (Pass.run rules t).lines = lines at passed
  cases passed with
  | cons settled rest =>
    cases rest
    rw [List.map_singleton, Text.joinWith_singleton]
    cases settled with
    | fenced inside =>
      rw [outside] at inside
      cases inside
    | prose flags _ fits => exact ⟨flags, by rw [if_pos fits]; rfl⟩
    | replaced _ long => exact ⟨[], by rw [if_neg (Nat.not_le_of_gt long)]; rfl⟩

end Markup
end NotebookPages
