import NotebookPages.Proofs.Markup.Balance
import NotebookPages.Proofs.Markup.Fences

/-! What writing a line can add. It adds no line end and no markup; every image left out and every tag removed makes
the line lighter; and the line is not longer than the pieces it was admitted with. -/

namespace NotebookPages.Markup

/-- The markup that a text can hold. A link weighs less than the autolink it replaces. -/
def weight (t : Text) : Nat := 2 * t.count '<' + t.count '['

namespace Piece

def chunk (d : Dialect) : Piece → Text
  | text _ written _ => written
  | tag _ t => t.render d
  | _ => []

/-- One for a piece that is given up: an image left out or markup removed. -/
def loss : Piece → Nat
  | text _ _ problem => if problem = some .dataUrl ∨ problem = some .unclosedTag then 1 else 0
  | tag _ _ => 0
  | _ => 1

def totalCost (cost : Piece → Nat) : List Piece → Nat
  | [] => 0
  | p :: rest => cost p + totalCost cost rest

theorem cost_eq_zero {cost : Piece → Nat} {ps : List Piece} (none : totalCost cost ps = 0) : ∀ p ∈ ps, cost p = 0 := by
  induction ps with
  | nil => simp
  | cons first ps ih =>
    rw [totalCost] at none
    intro p member
    rcases List.mem_cons.mp member with rfl | member
    · omega
    · exact ih (by omega) p member

end Piece

variable {d : Dialect} {q : Bool} {b : Option Char} {a r s after : Text} {p : Piece} {ps : List Piece}
  {last : Option Char} {gap afterText : Bool} {flags : List Bool} {problem : Option Problem}

theorem weight_append (a b : Text) : weight (a ++ b) = weight a + weight b := by
  simp only [weight, List.count_append]
  omega

theorem weight_le_of_count {a b : Text} (angle : a.count '<' ≤ b.count '<') (bracket : a.count '[' ≤ b.count '[') :
    weight a ≤ weight b := by
  unfold weight
  omega

theorem weight_angle (x : Text) : 2 ≤ weight ('<' :: x) := by
  simp [weight]
  omega

theorem weight_bracket (x : Text) : 1 ≤ weight ('[' :: x) := by
  simp [weight]
  omega

theorem IsUrl.count_eq_zero {url : Text} (valid : IsUrl url) {x : Char} (closer : isUrlChar x = false) : url.count x = 0 :=
  List.count_eq_zero.mpr (not_isUrlChar closer valid.1)

theorem count_htmlComment_le (body : Text) {x : Char} (other : x ∉ ['\x7b', '/', '*', ' ', '\x7d']) :
    (Dialect.mdx.comment (Text.trim body)).count x ≤ ('<' :: '!' :: '-' :: '-' :: (body ++ ['-', '-', '>'])).count x := by
  have comment := count_comment_le (Text.trim body) other
  have trim := (Text.infix_trim body).sublist.count_le x
  simp only [List.count_cons, List.count_append]
  omega

/-- What is written for a piece is no heavier than its source, and lighter where the piece is given up. -/
theorem Token.weight_le (token : Token d q b a r p) : weight (p.chunk d) + p.loss ≤ weight a := by
  have omitted : ∀ {x : Text}, 1 ≤ weight x → weight imageOmitted + 1 ≤ weight x := fun heavy => heavy
  cases token with
  | plain | backslash | escape | code | ticks | comment | bang | bracket | quote | angle | keptComment | keptAutolink =>
    exact Nat.le_refl _
  | brace mdx bare => rcases bare with ⟨rfl, -⟩ | rfl <;> exact Nat.zero_le _
  | link mark found =>
    obtain ⟨y, rfl⟩ := eq_of_afterDataLink? found
    apply omitted
    rw [weight_append]
    have heavy := weight_bracket (y ++ [')'])
    omega
  | greater | less => exact Nat.zero_le _
  | @htmlComment body =>
    have angle := count_htmlComment_le body (x := '<') (by decide)
    have bracket := count_htmlComment_le body (x := '[') (by decide)
    exact weight_le_of_count angle bracket
  | @declaration body =>
    have heavy := weight_angle ('!' :: (body ++ ['>']))
    show 0 + 1 ≤ _
    omega
  | @autolink url _ mdx valid =>
    have angle := valid.count_eq_zero (x := '<') (by decide)
    have bracket := valid.count_eq_zero (x := '[') (by decide)
    show weight ('[' :: (url ++ (']' :: '(' :: (url ++ [')'])))) ≤ weight ('<' :: (url ++ ['>']))
    simp [weight, angle, bracket]
  | tag spelled =>
    have angle := spelled.count_render_le (x := '<') (by decide) d
    have bracket := spelled.count_render_le (x := '[') (by decide) d
    exact weight_le_of_count angle bracket
  | dataImage spelled =>
    obtain ⟨front, rfl⟩ := spelled.closes
    have heavy := weight_angle (front ++ ['>'])
    exact omitted (by omega)

theorem Token.count_newline_le (token : Token d q b a r p) : (p.chunk d).count '\n' ≤ a.count '\n' := by
  cases token with
  | plain | backslash | escape | code | ticks | comment | bang | bracket | quote | angle | keptComment | keptAutolink =>
    exact Nat.le_refl _
  | brace mdx bare => rcases bare with ⟨rfl, -⟩ | rfl <;> exact Nat.zero_le _
  | link | greater | less | declaration | dataImage => exact Nat.zero_le _
  | @htmlComment body => exact count_htmlComment_le body (by decide)
  | @autolink url _ mdx valid =>
    have absent := valid.count_eq_zero (x := '\n') (by decide)
    simp [Piece.chunk, absent]
  | tag spelled => exact spelled.count_render_le (by decide) d

open Piece

/-- A measure that no token raises, no blank raises and that adds up is not raised by writing a line. A tag that is
removed costs what a tag costs at least. -/
theorem measure_weld {g : Text → Nat} {cost : Piece → Nat} (add : ∀ a b, g (a ++ b) = g a + g b) (blank : g [' '] = 0)
    (token : ∀ {q b a r p}, Token d q b a r p → g (p.chunk d) + cost p ≤ g a)
    (stray : ∀ {a t}, Tag.Spelling a t → cost (.stray a) ≤ g a) (reading : Reading d after q b s ps) :
    g (weld d last gap afterText (settle flags ps)) + totalCost cost (settle flags ps) ≤ g s := by
  have empty : g [] = 0 := by
    have := add [] []
    rw [List.append_nil] at this
    omega
  induction reading generalizing last gap afterText flags with
  | done => simp [settle, weld, totalCost, empty]
  | @more q b a r p ps first rest ih =>
    have here := token first
    rw [add]
    cases p with
    | text source v problem =>
      have later := @ih (v.getLast?.or last) false true flags
      have space : g (space last gap afterText v) = 0 := by
        rcases space_cases last gap afterText v with none | ⟨-, blank'⟩
        · rw [none, empty]
        · rw [blank', blank]
      rw [settle_text, weld_text, add, add, totalCost, space]
      simp only [chunk] at here
      omega
    | tag own t =>
      cases first with
      | tag spelled =>
        rcases @settle_tag a ps flags t with same | same
        · have later := @ih ((t.render d).getLast?.or last) false false flags.tail
          rw [same, weld_tag, add, totalCost]
          simp only [chunk] at here
          omega
        · have later := @ih last true afterText flags.tail
          have lost := stray spelled
          rw [same, weld_removed rfl, totalCost]
          omega
    | dropped own =>
      have later := @ih last true afterText flags
      rw [settle_dropped, weld_removed rfl, totalCost]
      simp only [chunk, empty] at here
      omega
    | stray own => cases first

theorem weight_weld (reading : Reading d after q b s ps) :
    weight (weld d last gap afterText (settle flags ps)) + totalCost loss (settle flags ps) ≤ weight s := by
  refine measure_weld weight_append (by decide) Token.weight_le (fun spelled => ?_) reading
  obtain ⟨front, rfl⟩ := Tag.Spelling.closes spelled
  have heavy := weight_angle (front ++ ['>'])
  show 1 ≤ _
  omega

theorem count_newline_weld (reading : Reading d after q b s ps) :
    (weld d last gap afterText (settle flags ps)).count '\n' ≤ s.count '\n' := by
  have bound : (weld d last gap afterText (settle flags ps)).count '\n' + totalCost (fun _ => 0) (settle flags ps) ≤ _ :=
    measure_weld (fun a b => List.count_append) (by decide) Token.count_newline_le (fun _ => Nat.zero_le _) reading
  exact Nat.le_of_add_right_le bound

/-- Removed markup counts for at least the blank that may take its place. -/
theorem length_weld_le (reading : Reading d after q b s ps) :
    (weld d last gap afterText (settle flags ps)).length ≤ totalWidth d ps + gap.toNat := by
  induction reading generalizing last gap afterText flags with
  | done => simp [settle, weld]
  | @more q b a r p ps first rest ih =>
    rw [totalWidth]
    cases p with
    | text own v problem =>
      have later := @ih (v.getLast?.or last) false true flags
      have space : (space last gap afterText v).length ≤ gap.toNat := by
        rcases space_cases last gap afterText v with none | ⟨rfl, blank⟩
        · simp [none]
        · simp [blank]
      rw [settle_text, weld_text, List.length_append, List.length_append, width]
      simp only [Bool.toNat_false] at later
      omega
    | tag own t =>
      cases first with
      | tag spelled =>
        obtain ⟨x, written⟩ := Tag.render_eq_cons spelled.wellFormed d
        rcases @settle_tag a ps flags t with same | same
        · have later := @ih ((t.render d).getLast?.or last) false false flags.tail
          rw [same, weld_tag, List.length_append, width]
          simp only [Bool.toNat_false] at later
          omega
        · have later := @ih last true afterText flags.tail
          rw [same, weld_removed rfl, width, written, List.length_cons]
          simp only [Bool.toNat_true] at later
          omega
    | dropped own =>
      have later := @ih last true afterText flags
      have some : 1 ≤ Text.utf8Length own := by
        cases first
        rw [Text.utf8Length]
        exact Nat.le_trans (Char.utf8Size_pos '<') (Nat.le_add_right _ _)
      rw [settle_dropped, weld_removed rfl, width]
      simp only [Bool.toNat_true] at later
      omega
    | stray own => cases first

end NotebookPages.Markup
