import NotebookPages.Proofs.Markup.Braces
import NotebookPages.Proofs.Markup.Overruns

/-! Autolinks in MDX. An autolink is written as a link that begins with a bracket, and what stands before it is written as it is by
itself. A text that ends with a `!` makes an image of the link: no backslash is written before that `!`. -/

namespace NotebookPages.Markup

open Piece

/-- The link that is written for an autolink. -/
def ownLink (url : Text) : Text := '[' :: (url ++ (']' :: '(' :: (url ++ [')'])))

/-- A bracket behind the text begins an image: the text ends with a `!` that no backslash escapes. -/
def EndsInBang (w : Text) : Prop := ∃ front, w = front ++ ['!'] ∧ slashes front % 2 = 0

variable {rules : Rules} {d : Dialect} {q : Bool} {b : Option Char} {c : Char} {a r s t url w after : Text} {p : Piece} {ps : List Piece}

theorem slashes_of_getLast? (other : w.getLast? ≠ some '\\') : slashes w = 0 := by
  rcases List.eq_nil_or_concat' w with rfl | ⟨front, c, rfl⟩
  · rfl
  · rw [List.getLast?_concat] at other
    have noSlash : (c == '\\') ≠ true := fun same => other (congrArg some (eq_of_beq same))
    rw [slashes_concat, if_neg noSlash]

/-- Text without brackets is read by itself. -/
theorem reading_of_bare (simple : Simple s) (bare : '[' ∉ s) (detached : Detached after) (q : Bool) (b : Option Char) :
    ∃ ps, Reading d after q b s ps := by
  rcases reading_or_overrun (d := d) simple detached q b with ⟨-, reading⟩ | ⟨-, overrun⟩
  · exact reading
  · obtain ⟨front, bang, x, y, behind, ps, shape, -⟩ := overrun
    have bracket : '[' ∈ s := by
      rw [shape]
      simp
    exact absurd bracket bare

/-- What is written for a piece of such a text ends as the piece does, or with the semicolon of an escaped `>`. -/
theorem Token.getLast?_chunk (token : Token d q b a r p) (simple : Simple a) (bare : '[' ∉ a) :
    (chunk d p).getLast? = a.getLast? ∨ (chunk d p).getLast? = some ';' ∧ a.getLast? = some '>' := by
  cases token with
  | plain | backslash | escape | code | ticks | comment | bang | bracket | quote | angle | keptComment | keptAutolink => exact Or.inl rfl
  | brace => exact Or.inl rfl
  | greater => exact Or.inr ⟨rfl, rfl⟩
  | link mark found =>
    obtain ⟨x, rfl⟩ := eq_of_afterDataLink? found
    exact absurd (by simp) bare
  | less | htmlComment | declaration | autolink => exact absurd (by decide) (simple '<' List.mem_cons_self)
  | tag spelled | dataImage spelled =>
    obtain ⟨x, rfl⟩ := spelled.closes
    exact absurd (by decide) (simple '<' List.mem_cons_self)

/-- What is written for such a text ends as it does, or with the semicolon of an escaped `>`. -/
theorem getLast?_chunks (reading : Reading d after q b s ps) (simple : Simple s) (bare : '[' ∉ s) :
    (ps.flatMap (chunk d)).getLast? = s.getLast? ∨ (ps.flatMap (chunk d)).getLast? = some ';' ∧ s.getLast? = some '>' := by
  induction reading with
  | done => exact Or.inl rfl
  | @more q b a r p ps token rest ih =>
    have here := token.getLast?_chunk simple.start fun inside => bare (List.mem_append_left r inside)
    rw [List.flatMap_cons, List.getLast?_append, List.getLast?_append]
    -- the end of what follows, if there is anything, or else the end of the piece
    rcases ih simple.behind fun inside => bare (List.mem_append_right a inside) with same | ⟨written, source⟩
    · rw [same]
      cases r.getLast? with
      | none => exact here
      | some c => exact Or.inl rfl
    · rw [written, source]
      exact Or.inr ⟨rfl, rfl⟩

theorem getLast?_chunks_iff (reading : Reading d after q b s ps) (simple : Simple s) (bare : '[' ∉ s) (other : c ∉ [';', '>']) :
    (ps.flatMap (chunk d)).getLast? = some c ↔ s.getLast? = some c := by
  rcases getLast?_chunks reading simple bare with same | ⟨written, source⟩
  · rw [same]
  · simp only [List.mem_cons, List.not_mem_nil, or_false, not_or] at other
    rw [written, source, Option.some.injEq, Option.some.injEq]
    exact iff_of_false (Ne.symm other.1) (Ne.symm other.2)

/-- What is written for such a text ends with an unescaped `!` exactly if the text ends with a `!`. -/
theorem endsInBang_chunks_iff (reading : Reading d [] q b s ps) (simple : Simple s) (bare : '[' ∉ s) :
    EndsInBang (ps.flatMap (chunk d)) ↔ s.getLast? = some '!' := by
  constructor
  · rintro ⟨front, written, -⟩
    apply (getLast?_chunks_iff reading simple bare (by decide)).mp
    rw [written, List.getLast?_concat]
  · intro ends
    obtain ⟨front, rfl⟩ := List.getLast?_eq_some_iff.mp ends
    have bare' : '[' ∉ front := fun inside => bare (List.mem_append_left _ inside)
    have detached : Detached ['!'] := detached_cons (by decide) []
    obtain ⟨qs, before⟩ := reading_of_bare (d := d) simple.start bare' detached q b
    have whole : Reading d [] q b (front ++ ['!']) (qs ++ [.plain ['!']]) := by
      apply Reading.append
      · exact before
      · exact .single (.bang rfl)
    have noSlash : (qs.flatMap (chunk d)).getLast? ≠ some '\\' := by
      intro slash
      have source := (getLast?_chunks_iff before simple.start bare' (by decide)).mp slash
      exact simple.start '\\' (List.mem_of_getLast? source) (by decide)
    refine ⟨qs.flatMap (chunk d), ?_, ?_⟩
    · rw [reading.unique whole, List.flatMap_append]
      rfl
    · rw [slashes_of_getLast? noSlash]

/-- An autolink is written as a link behind what is written for the text before it, and that ends with an unescaped `!`, so that the
link is an image, exactly if the text ends with a `!`. -/
theorem sanitize_autolink (mdx : rules.dialect = .mdx) (before : Simple t) (bare : '[' ∉ t)
    (linked : autolink? ('<' :: (url ++ ['>'])) = some (url, [])) (oneLine : Text.IsLine (t ++ ('<' :: (url ++ ['>']) ++ s)))
    (prose : Fence.open? (t ++ ('<' :: (url ++ ['>']) ++ s)) = none)
    (fits : totalWidth rules.dialect (scanLine rules.dialect (t ++ ('<' :: (url ++ ['>']) ++ s))) ≤ rules.maxLine) :
    (∃ rest, sanitize rules (t ++ ('<' :: (url ++ ['>']) ++ s)) = sanitize rules t ++ (ownLink url ++ rest)) ∧
      (EndsInBang (sanitize rules t) ↔ t.getLast? = some '!') := by
  obtain ⟨-, valid⟩ := autolink?_eq_some_iff.mp linked
  have detached : Detached ('<' :: (url ++ ['>']) ++ s) := detached_cons (by decide) _
  obtain ⟨ps, reading⟩ := reading_of_bare (d := rules.dialect) before bare detached true none
  have alone : Reading rules.dialect [] true none t ps := by
    apply Reading.alone
    · exact reading
    · exact before
    · exact detached
  obtain ⟨qs, back⟩ : ∃ qs, Reading rules.dialect [] (true && t.all isLead) (t.getLast?.or none) ('<' :: (url ++ ['>']) ++ s)
      (.text ('<' :: (url ++ ['>'])) (ownLink url) none :: qs) := ⟨_, .more (.autolink mdx valid) (reading_scan ..)⟩
  obtain ⟨width, flags, last, afterText, written⟩ := sanitize_behind reading before oneLine prose back
  have own : sanitize rules t = ps.flatMap (chunk rules.dialect) := by
    have short : (ps.flatMap (chunk rules.dialect)).length ≤ rules.maxLine := by omega
    have isLine : Text.IsLine t := fun newline => oneLine (List.mem_append_left _ newline)
    rw [sanitize_simple alone before isLine prose, if_pos short]
  rw [own]
  refine ⟨?_, endsInBang_chunks_iff alone before bare⟩
  exists weld rules.dialect ((ownLink url).getLast?.or last) false true (settle flags qs)
  rw [written, if_pos fits, settle_text, weld_text, space_of_tight, List.nil_append]
  apply guardFence_of_none
  apply open?_chunks reading before prose
  · decide
  · decide

theorem sanitize_autolink_quoted :
    Simple "> a!\x7d > " ∧ Fence.open? ("> a!\x7d > " ++ ('<' :: ("https://e.com" ++ ['>']) ++ " <b>c")) = none ∧
      (∃ rest, sanitize {} ("> a!\x7d > " ++ ('<' :: ("https://e.com" ++ ['>']) ++ " <b>c")) =
        sanitize {} "> a!\x7d > " ++ (ownLink "https://e.com" ++ rest)) ∧
      ¬ EndsInBang (sanitize {} "> a!\x7d > ") := by
  have simple : Simple "> a!\x7d > " := by decide
  have oneLine : Text.IsLine ("> a!\x7d > " ++ ('<' :: ("https://e.com" ++ ['>']) ++ " <b>c")) := by
    unfold Text.IsLine
    decide
  have prose : Fence.open? ("> a!\x7d > " ++ ('<' :: ("https://e.com" ++ ['>']) ++ " <b>c")) = none := rfl
  have mdx : ({} : Rules).dialect = .mdx := rfl
  obtain ⟨written, bang⟩ := sanitize_autolink mdx simple (by decide) rfl oneLine prose (by decide +kernel)
  refine ⟨simple, prose, written, fun ends => ?_⟩
  exact absurd (bang.mp ends) (by decide)

/-- An autolink behind a `!` becomes an image. -/
theorem autolink_shown_as_image :
    Simple "!" ∧ '[' ∉ "!".toList ∧ autolink? ('<' :: ("https://e.com" ++ ['>'])) = some (("https://e.com" : Text), []) ∧
      Fence.open? "!<https://e.com>" = none ∧ totalWidth .mdx (scanLine .mdx "!<https://e.com>") ≤ ({} : Rules).maxLine ∧
      sanitize {} "!<https://e.com>" = "![https://e.com](https://e.com)" ∧
      sanitize {} "!<https://e.com>" = sanitize {} "!" ++ ownLink "https://e.com" ∧ EndsInBang (sanitize {} "!") := by
  refine ⟨by decide, by decide, by decide +kernel, by decide +kernel, by decide +kernel, by decide +kernel, by decide +kernel, ?_⟩
  exact ⟨[], rfl, rfl⟩

end NotebookPages.Markup
