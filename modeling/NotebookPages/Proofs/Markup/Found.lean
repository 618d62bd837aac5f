import NotebookPages.Proofs.Markup.ProseLines

/-! What is found in the prose of a text, if the pieces are looked at one by one and kept text tells nothing. Blanks and dashes
at the end of a text do not matter to it. -/

namespace NotebookPages.Markup

variable {α : Type} {f : Piece → Option α} {d : Dialect} {q : Bool} {b : Option Char} {c : Char} {s t v w : Text}
  {ps : List Piece} {held : Option Fence}

def found (d : Dialect) (f : Piece → Option α) (held : Option Fence) (lines : List Text) : List α :=
  (proseLines held lines).flatMap fun line => (scanLine d line).filterMap f

/-- Text that is kept tells nothing. -/
def Silent (f : Piece → Option α) : Prop := ∀ x, f (.plain x) = none

theorem silent_problem : Silent Piece.problem? := fun _ => rfl

theorem silent_tag : Silent Piece.tag? := fun _ => rfl

/-- What the end of a page can lose. -/
def isTrailing (c : Char) : Bool := Text.isBlank c || c == '-'

theorem inert_of_trailing (trailing : isTrailing c = true) : Inert [c] := by
  intro e inside
  obtain rfl := List.mem_singleton.mp inside
  rw [isTrailing, Bool.or_eq_true, beq_iff_eq] at trailing
  rcases trailing with blank | rfl
  · exact inert_of_blank (v := [e]) (by simpa [Text.Blank] using blank) e inside
  · decide

theorem found_append (held : Option Fence) (a b : List Text) :
    found d f held (a ++ b) = found d f held a ++ found d f (Fence.after held a) b := by
  rw [found, proseLines_append, List.flatMap_append]
  rfl

theorem found_cons (held : Option Fence) (line : Text) (lines : List Text) : found d f held (line :: lines) =
    (if Fence.isProse held line then (scanLine d line).filterMap f else []) ++ found d f (Fence.next held line) lines := by
  rw [found, proseLines]
  split
  · exact List.flatMap_cons
  · rfl

theorem found_nil_line (held : Option Fence) : found d f held [[]] = [] := by
  rw [found_cons]
  split <;> rfl

/-- A token at the end of a line loses the character that ends it to kept text. -/
theorem Reading.withoutLast (reading : Reading d [] q b s ps) (silent : Silent f) (trailing : isTrailing c = true)
    (shape : s = w ++ [c]) : ∃ qs, Reading d [] q b w qs ∧ ps.filterMap f = qs.filterMap f := by
  induction reading generalizing w with
  | done => exact absurd shape.symm (List.append_ne_nil_of_right_ne_nil w (List.cons_ne_nil c []))
  | @more q b a r p ps token rest ih =>
    rw [List.append_nil] at token
    rcases List.eq_nil_or_concat' r with rfl | ⟨r', e, rfl⟩
    · rw [List.append_nil] at shape
      obtain rfl : [] = ps := rest.scan_eq
      rcases token.ends with ⟨e, rfl, rfl⟩ | ⟨m, rfl, rfl, -⟩ | ⟨x, e, rfl, mark⟩
      · obtain ⟨rfl, -⟩ := List.append_inj' (show [] ++ [e] = w ++ [c] from shape) rfl
        exact ⟨[], .done, List.filterMap_cons_none (silent _)⟩
      · obtain ⟨rfl, -⟩ := List.append_inj' (show ['\\'] ++ [m] = w ++ [c] from shape) rfl
        refine ⟨[.plain ['\\']], .single (.backslash rfl), ?_⟩
        rw [List.filterMap_cons_none (silent _), List.filterMap_cons_none (silent _)]
      · obtain ⟨-, same⟩ := List.append_inj' shape rfl
        obtain rfl := List.cons.inj same |>.1
        have solid : ∀ e ∈ ['`', '\x7d', ')', '>', '<', '\x7b'], isTrailing e = false := Text.forall_mem_of_all (by decide)
        rw [solid e mark] at trailing
        cases trailing
    · rw [← List.append_assoc] at shape
      obtain ⟨rfl, same⟩ := List.append_inj' shape rfl
      obtain rfl := (List.cons.inj same).1
      obtain ⟨qs, reading, alike⟩ := ih rfl
      have first : Token d q b a (r' ++ []) p := by
        rw [List.append_nil]
        exact token.trim (inert_of_trailing trailing)
      refine ⟨p :: qs, .more first reading, ?_⟩
      rw [List.filterMap_cons, List.filterMap_cons, alike]

theorem filterMap_scanLine_concat (silent : Silent f) (trailing : isTrailing c = true) (w : Text) :
    (scanLine d (w ++ [c])).filterMap f = (scanLine d w).filterMap f := by
  obtain ⟨qs, reading, alike⟩ := (reading_scan d true none (w ++ [c])).withoutLast silent trailing rfl
  rw [scanLine, alike, scanLine, reading.scan_eq]

theorem open?_concat (noTick : c ≠ '`') (noTilde : c ≠ '~') (line : Text) : Fence.open? (line ++ [c]) = Fence.open? line := by
  cases opened : Fence.open? line with
  | some fence =>
    obtain ⟨blanks, info, opening⟩ := Fence.open?_sound opened
    have other : c ≠ fence.marker := by rcases opening.marker with same | same <;> rwa [same]
    have longer : fence.Opening (line ++ [c]) blanks (info ++ [c]) :=
      { opening with
        shape := by rw [opening.shape]; simp
        stop := by
          cases info with
          | nil => exact fun same => other (Option.some.inj same)
          | cons e info => exact opening.stop
        plain := by
          intro tick inside
          rcases List.mem_append.mp inside with inside | inside
          · exact opening.plain tick inside
          · exact noTick (List.mem_singleton.mp inside).symm }
    exact longer.open?
  | none =>
    cases opened' : Fence.open? (line ++ [c]) with
    | none => rfl
    | some fence =>
      obtain ⟨blanks, info, opening⟩ := Fence.open?_sound opened'
      have other : c ≠ fence.marker := by rcases opening.marker with same | same <;> rwa [same]
      obtain ⟨n, long⟩ := opening.exists_length
      rcases List.eq_nil_or_concat' info with rfl | ⟨info, e, rfl⟩
      · have shape := opening.shape
        rw [List.append_nil, long, List.replicate_succ', ← List.append_assoc] at shape
        exact absurd (List.cons.inj (List.append_inj' shape rfl).2).1 other
      · have shape := opening.shape
        rw [← List.append_assoc, ← List.append_assoc] at shape
        obtain ⟨whole, -⟩ := List.append_inj' shape rfl
        have shorter : fence.Opening line blanks info :=
          { opening with
            shape := by rw [whole, List.append_assoc]
            stop := by
              cases info with
              | nil => simp
              | cons e' info => exact opening.stop
            plain := fun tick inside => opening.plain tick (List.mem_append_left _ inside) }
        rw [shorter.open?] at opened
        cases opened

theorem found_concat (silent : Silent f) (trailing : isTrailing c = true) (held : Option Fence) (t : Text) :
    found d f held (Text.splitLines (t ++ [c])) = found d f held (Text.splitLines t) := by
  by_cases newline : c = '\n'
  · subst newline
    rw [Text.splitLines_append, found_append, show Text.splitLines [] = [[]] from rfl, found_nil_line, List.append_nil]
  · have line : Text.IsLine [c] := fun inside => newline (List.mem_singleton.mp inside).symm
    obtain ⟨front, last, shape, longer⟩ := Text.splitLines_postpend t line
    have marker : c ≠ '`' ∧ c ≠ '~' := by
      constructor <;> rintro rfl <;> exact absurd trailing (by decide)
    rw [shape, longer, found_append, found_append]
    congr 1
    have prose (held : Option Fence) : Fence.isProse held (last ++ [c]) = Fence.isProse held last := by
      unfold Fence.isProse
      rw [open?_concat marker.1 marker.2]
    rw [found_cons, found_cons, prose, filterMap_scanLine_concat silent trailing]
    rfl

/-- What is found in a text is found without the blanks and dashes that end it. -/
theorem found_trailing (silent : Silent f) (trailing : ∀ c ∈ v, isTrailing c = true) (held : Option Fence) (t : Text) :
    found d f held (Text.splitLines (t ++ v)) = found d f held (Text.splitLines t) := by
  induction v generalizing t with
  | nil => rw [List.append_nil]
  | cons c v ih =>
    obtain ⟨first, others⟩ := List.forall_mem_cons.mp trailing
    have whole := ih others (t ++ [c])
    rw [List.append_assoc, List.singleton_append] at whole
    rw [whole, found_concat silent first]

theorem found_newline (t : Text) : found d f none (Text.splitLines ('\n' :: t)) = found d f none (Text.splitLines t) := by
  rw [Text.splitLines_newline, found_cons]
  rfl

theorem clear_iff {rules : Rules} {lines : List Text} : Clear rules lines ↔
    (∀ line ∈ proseLines none lines, Piece.totalWidth rules.dialect (scanLine rules.dialect line) ≤ rules.maxLine) ∧
      Clean (found rules.dialect Piece.problem? none lines) ∧ Balanced (found rules.dialect Piece.tag? none lines) := by
  constructor
  · intro clear
    refine ⟨fun line member => (clear.tidy line member).fits, ?_, clear.balanced⟩
    intro p inside
    obtain ⟨line, member, here⟩ := List.mem_flatMap.mp inside
    exact (clear.tidy line member).silent p here
  · rintro ⟨fits, clean, balanced⟩
    refine ⟨fun line member => ⟨fits line member, fun p here => ?_⟩, balanced⟩
    exact clean p (List.mem_flatMap_of_mem member here)

end NotebookPages.Markup
