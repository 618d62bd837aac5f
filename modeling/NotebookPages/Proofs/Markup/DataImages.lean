import NotebookPages.Proofs.Markup.Overruns
import NotebookPages.Proofs.Markup.Shown

/-! Images whose address is a data URL. The note for an image stands for everything from the first bracket whose address is the
data URL: a bracket before the image takes the text between them with it, and a link in the description takes the bracket of the
image, so that the address is left. -/

namespace NotebookPages.Markup

open Piece

def dataScheme : Text := ['d', 'a', 't', 'a', ':']

/-- The end of the description of an image, and its address. -/
def dataTarget (u : Text) : Text := ']' :: '(' :: (dataScheme ++ (u ++ [')']))

def dataImage (a u : Text) : Text := '!' :: '[' :: (a ++ dataTarget u)

/-- What stands before the first bracket, and before the mark that makes an image of it. -/
def beforeLink (s : Text) : Text :=
  let front := s.takeWhile (· != '[')
  if front.getLast? = some '!' then front.dropLast else front

variable {rules : Rules} {d : Dialect} {q : Bool} {b : Option Char} {a behind p r s u v w x y after : Text} {ps : List Piece}

theorem beforeLink_split (bracket : '[' ∈ s) : ∃ bang x, s = beforeLink s ++ (bang ++ '[' :: x) ∧ (bang = [] ∨ bang = ['!']) ∧
    '[' ∉ beforeLink s ∧ (bang = [] → (beforeLink s).getLast? ≠ some '!') := by
  have whole : s.takeWhile (· != '[') ++ s.dropWhile (· != '[') = s := List.takeWhile_append_dropWhile
  have absent : '[' ∉ s.takeWhile (· != '[') := fun inside => absurd (List.mem_takeWhile_imp inside) (by decide)
  obtain ⟨x, rest⟩ : ∃ x, s.dropWhile (· != '[') = '[' :: x := by
    cases rest : s.dropWhile (· != '[') with
    | nil =>
      rw [rest, List.append_nil] at whole
      rw [whole] at absent
      exact absurd bracket absent
    | cons e x =>
      have stop := List.head?_dropWhile_not (· != '[') s
      simp only [rest, List.head?_cons] at stop
      obtain rfl : e = '[' := by simpa using stop
      exact ⟨x, rfl⟩
  rw [rest] at whole
  unfold beforeLink
  by_cases mark : (s.takeWhile (· != '[')).getLast? = some '!'
  · rw [if_pos mark]
    obtain ⟨front, same⟩ := List.getLast?_eq_some_iff.mp mark
    rw [same] at whole absent ⊢
    rw [List.dropLast_concat]
    refine ⟨['!'], x, ?_, Or.inr rfl, fun inside => absent (List.mem_append_left _ inside), by simp⟩
    rw [← whole]
    simp
  · rw [if_neg mark]
    exact ⟨[], x, whole.symm, Or.inl rfl, absent, fun _ => mark⟩

theorem beforeLink_image (absent : '[' ∉ p) : beforeLink (p ++ ['!', '[']) = p := by
  have front : (p ++ ['!', '[']).takeWhile (· != '[') = p ++ ['!'] := by
    have all : ∀ c ∈ p ++ ['!'], (c != '[') = true := by
      intro c inside
      rcases List.mem_append.mp inside with inside | inside
      · simpa using fun same : c = '[' => absent (same ▸ inside)
      · obtain rfl := List.mem_singleton.mp inside
        decide
    have stop := Text.takeWhile_stop (y := ['[']) all (by simp)
    rwa [List.append_assoc] at stop
  simp [beforeLink, front]

theorem cut_of_not_infix (absent : ¬ [']', '('] <:+: x) (y : Text) : Text.cut [']', '('] (x ++ (']' :: '(' :: y)) = some (x, y) := by
  induction x with
  | nil => simp [Text.cut, List.isPrefixOf?]
  | cons c x ih =>
    have later := ih fun inside => absent (List.infix_cons_iff.mpr (Or.inr inside))
    have missing : List.isPrefixOf? [']', '('] (c :: (x ++ (']' :: '(' :: y))) = none := by
      cases found : List.isPrefixOf? [']', '('] (c :: (x ++ (']' :: '(' :: y))) with
      | none => rfl
      | some after =>
        obtain ⟨rfl, next⟩ := List.cons.inj (Text.isPrefixOf?_eq_some_iff.mp found)
        cases x with
        | nil => cases (List.cons.inj next).1
        | cons e x =>
          obtain rfl := (List.cons.inj next).1
          exact absurd ⟨[], x, rfl⟩ absent
    rw [List.cons_append, Text.cut]
    simp [missing, later]

theorem dataTarget_append (u s : Text) : dataTarget u ++ s = ']' :: '(' :: (dataScheme ++ u ++ ')' :: s) := by
  simp [dataTarget]

/-- A bracket is closed by the first end of a description behind it, here that of the image. -/
theorem afterDataLink?_dataTarget (absent : ¬ [']', '('] <:+: x) (closer : ')' ∉ u) (s : Text) :
    afterDataLink? ('[' :: (x ++ (dataTarget u ++ s))) = some s := by
  have opened := cut_of_not_infix absent (dataScheme ++ u ++ ')' :: s)
  have none : ')' ∉ dataScheme ++ u := by simpa [dataScheme] using closer
  have closed : Text.cut [')'] (dataScheme ++ u ++ ')' :: s) = some (dataScheme ++ u, s) := Text.cut_singleton.mpr ⟨rfl, none⟩
  have data : isDataUrl (dataScheme ++ u ++ ')' :: s) = true := by
    rw [List.append_assoc]
    rfl
  rw [dataTarget_append, afterDataLink?]
  simp only [String.reduceToList, opened, data, if_true, closed, Option.map_some]

/-- Text whose brackets and marks begin no link is read character by character. -/
theorem Reading.unlinked (calm : ∀ c ∈ x, isSpecial d c = false ∨ c = '!' ∨ c = '[')
    (noLink : ∀ y c z, x = y ++ c :: z → afterDataLink? (c :: (z ++ after)) = none ∧ (c = '!' → afterDataLink? (z ++ after) = none)) :
    Reading d after q b x (x.map fun c => .plain [c]) := by
  induction x generalizing q b with
  | nil => exact .done
  | cons c x ih =>
    have here := noLink [] c x rfl
    refine .more (a := [c]) ?_ (ih (fun e inside => calm e (List.mem_cons_of_mem c inside)) fun y e z shape => ?_)
    · rcases calm c List.mem_cons_self with ordinary | rfl | rfl
      · exact .plain ordinary
      · exact .bang (here.2 rfl)
      · exact .bracket here.1
    · exact noLink (c :: y) e z (by rw [shape]; rfl)

/-- Text without code, markup, escapes, braces and the brackets `](` between a description and an address. -/
structure Prosaic (t : Text) : Prop where
  plain : ∀ c ∈ t, c ∉ ['`', '\\', '<', '>', '\x7b', '\x7d']
  noAddress : ¬ [']', '('] <:+: t

theorem Prosaic.simple (prosaic : Prosaic s) : Simple s := fun c inside mark =>
  prosaic.plain c inside (Text.forall_mem_of_all (t := ['`', '\\', '<', '\x7b']) (by decide) c mark)

theorem Prosaic.calm (prosaic : Prosaic s) (d : Dialect) : ∀ c ∈ s, isSpecial d c = false ∨ c = '!' ∨ c = '[' := by
  intro c inside
  by_cases mark : c = '!' ∨ c = '['
  · exact Or.inr mark
  · have plain := prosaic.plain c inside
    simp only [List.mem_cons, List.not_mem_nil, or_false, not_or] at plain mark
    left
    simp [isSpecial, plain, mark]

theorem Prosaic.start (prosaic : Prosaic (x ++ y)) : Prosaic x where
  plain c inside := prosaic.plain c (List.mem_append_left y inside)
  noAddress inside := prosaic.noAddress (inside.trans (List.prefix_append x y).isInfix)

/-- Such a text is read character by character at the end of a line. -/
theorem Prosaic.reading (prosaic : Prosaic s) : Reading d [] q b s (s.map fun c => .plain [c]) := by
  have noLink : ∀ y z, s = y ++ z → afterDataLink? (z ++ []) = none := by
    intro y z shape
    rw [List.append_nil]
    cases found : afterDataLink? z with
    | none => rfl
    | some rest =>
      exact absurd ((infix_of_afterDataLink? found).trans (by rw [shape]; exact (List.suffix_append y z).isInfix)) prosaic.noAddress
  refine Reading.unlinked (prosaic.calm d) fun y c z shape => ⟨noLink y (c :: z) shape, fun _ => ?_⟩
  exact noLink (y ++ [c]) z (by rw [shape, List.append_assoc, List.singleton_append])

/-- Such a text is read character by character up to its first bracket. -/
theorem Prosaic.reading_front {bang : Text} (prosaic : Prosaic s) (absent : '[' ∉ s) (mark : bang = [] ∨ bang = ['!'])
    (stop : bang = [] → s.getLast? ≠ some '!') : Reading d (bang ++ '[' :: x) q b s (s.map fun c => .plain [c]) := by
  refine Reading.unlinked (prosaic.calm d) fun y c z shape => ⟨afterDataLink?_of_head ?_ _, fun same => ?_⟩
  · rintro rfl
    exact absent (by rw [shape]; simp)
  · subst same
    cases z with
    | cons e z => exact afterDataLink?_of_head (fun same => absent (by rw [shape, same]; simp)) _
    | nil =>
      rcases mark with rfl | rfl
      · exact absurd (by rw [shape, List.getLast?_concat]) (stop rfl)
      · exact afterDataLink?_of_head (by decide) _

theorem noAddress_of_parenthesis (absent : '(' ∉ s) : ¬ [']', '('] <:+: s := fun inside => absent (inside.subset (by simp))

/-- A text without the separator is on one side of it. -/
theorem infix_of_separated {e : Char} (inside : x <:+: v ++ e :: w) (absent : e ∉ x) : x <:+: v ∨ x <:+: w := by
  have first : ∀ {y}, y <+: e :: w → e ∉ y → y = [] := fun starts absent =>
    List.prefix_nil.mp (prefix_of_stop (y := []) starts absent)
  rcases List.infix_append_iff.mp inside with here | there | ⟨x₁, x₂, rfl, ends, starts⟩
  · exact Or.inl here
  · rcases List.infix_cons_iff.mp there with starts | there
    · exact Or.inl (by rw [first starts absent]; exact List.nil_infix)
    · exact Or.inr there
  · rw [first starts fun inside => absent (List.mem_append_right x₁ inside), List.append_nil]
    exact Or.inl ends.isInfix

/-- The only bracket before a description whose address is that of the image is the bracket of the image or one before it. -/
theorem label_not_infix (prosaic : Prosaic p) (label : ']' ∉ a) : ¬ [']', '('] <:+: p ++ '!' :: '[' :: a := by
  intro inside
  rcases infix_of_separated inside (by decide) with here | here
  · exact prosaic.noAddress here
  · exact label (by simpa using here.subset (List.mem_cons_self (a := ']')))

theorem Prosaic.bracket (prosaic : Prosaic p) : Prosaic (p ++ ['!', '[']) where
  plain c inside := by
    rcases List.mem_append.mp inside with inside | inside
    · exact prosaic.plain c inside
    · simp only [List.mem_cons, List.not_mem_nil, or_false] at inside
      rcases inside with rfl | rfl <;> decide
  noAddress := label_not_infix prosaic (a := []) (by simp)

theorem not_mem_longLineNote (d : Dialect) : '_' ∉ d.comment longLineNote := by cases d <;> decide

/-- A line of such texts with one link between them: the note stands for the link, and nothing else changes. -/
theorem sanitize_link_prosaic {bang : Text} (before : Prosaic p) (absent : '[' ∉ p) (mark : bang = [] ∨ bang = ['!'])
    (stop : bang = [] → p.getLast? ≠ some '!') (behind : Prosaic s) (found : afterDataLink? ('[' :: (w ++ s)) = some s)
    (oneLine : Text.IsLine (p ++ (bang ++ '[' :: w ++ s))) (prose : Fence.open? (p ++ (bang ++ '[' :: w ++ s)) = none) :
    sanitize rules (p ++ (bang ++ '[' :: w ++ s)) =
      if (p ++ (imageOmitted ++ s)).length ≤ rules.maxLine then p ++ (imageOmitted ++ s) else rules.dialect.comment longLineNote := by
  have front : Reading rules.dialect (bang ++ '[' :: (w ++ s)) true none p _ := before.reading_front absent mark stop
  rw [← List.cons_append, ← List.append_assoc] at front
  obtain ⟨q, b, qs, rest, width, flags, last, written⟩ := sanitize_link front before.simple mark rfl found oneLine prose
  obtain rfl := rest.unique behind.reading
  rw [written, width, weld_whole rest behind.simple, totalWidth_whole rest behind.simple, chunks_map, chunks_map,
    List.length_append, List.length_append]

/-- The note for an image stands for everything from the first bracket of the line, so the image alone is replaced exactly if no
bracket stands before it. -/
theorem sanitize_dataImage (before : Prosaic p) (behind : Prosaic s) (label : ']' ∉ a) (address : ')' ∉ u)
    (oneLine : Text.IsLine (p ++ (dataImage a u ++ s))) (prose : Fence.open? (p ++ (dataImage a u ++ s)) = none) :
    sanitize rules (p ++ (dataImage a u ++ s)) =
        (if (beforeLink (p ++ ['!', '[']) ++ (imageOmitted ++ s)).length ≤ rules.maxLine
         then beforeLink (p ++ ['!', '[']) ++ (imageOmitted ++ s) else rules.dialect.comment longLineNote) ∧
      (sanitize rules (p ++ (dataImage a u ++ s)) = p ++ (imageOmitted ++ s) ↔
        '[' ∉ p ∧ (p ++ (imageOmitted ++ s)).length ≤ rules.maxLine) := by
  obtain ⟨bang, x, shape, mark, absent, stop⟩ := beforeLink_split (s := p ++ ['!', '[']) (by simp)
  have written : sanitize rules (p ++ (dataImage a u ++ s)) =
      if (beforeLink (p ++ ['!', '[']) ++ (imageOmitted ++ s)).length ≤ rules.maxLine
      then beforeLink (p ++ ['!', '[']) ++ (imageOmitted ++ s) else rules.dialect.comment longLineNote := by
    have front : Prosaic (beforeLink (p ++ ['!', '['])) := by
      have opened := before.bracket
      rw [shape] at opened
      exact opened.start
    have inner : ¬ [']', '('] <:+: x ++ a := by
      intro inside
      refine label_not_infix before label (inside.trans ⟨beforeLink (p ++ ['!', '[']) ++ (bang ++ ['[']), [], ?_⟩)
      simpa using congrArg (· ++ a) shape.symm
    have found := afterDataLink?_dataTarget inner address s
    rw [List.append_assoc, ← List.append_assoc a, ← List.append_assoc] at found
    have line : p ++ (dataImage a u ++ s) = beforeLink (p ++ ['!', '[']) ++ (bang ++ '[' :: (x ++ (a ++ dataTarget u)) ++ s) := by
      simpa [dataImage] using congrArg (· ++ (a ++ (dataTarget u ++ s))) shape
    rw [line] at oneLine prose ⊢
    exact sanitize_link_prosaic front absent mark stop behind found oneLine prose
  refine ⟨written, fun same => ?_, fun ⟨bare, fits⟩ => ?_⟩
  · rw [same] at written
    split at written
    next fits =>
      have kept : p = beforeLink (p ++ ['!', '[']) := List.append_cancel_right written
      rw [← kept] at absent fits
      exact ⟨absent, fits⟩
    next =>
      have inside : '_' ∈ p ++ (imageOmitted ++ s) := List.mem_append_right p (List.mem_append_left s (by decide))
      rw [written] at inside
      exact absurd inside (not_mem_longLineNote rules.dialect)
  · rw [written, beforeLink_image bare, if_pos fits]

theorem sanitize_dataImage_between :
    Prosaic "x! " ∧ Prosaic " [y]" ∧ Fence.open? ("x! " ++ (dataImage "b" "," ++ " [y]")) = none ∧
      sanitize {} ("x! " ++ (dataImage "b" "," ++ " [y]")) = "x! " ++ (imageOmitted ++ " [y]") := by
  have before : Prosaic "x! " := ⟨Text.forall_mem_of_all (by decide), noAddress_of_parenthesis (by decide)⟩
  have behind : Prosaic " [y]" := ⟨Text.forall_mem_of_all (by decide), noAddress_of_parenthesis (by decide)⟩
  have oneLine : Text.IsLine ("x! " ++ (dataImage "b" "," ++ " [y]")) := by
    unfold Text.IsLine
    decide
  have prose : Fence.open? ("x! " ++ (dataImage "b" "," ++ " [y]")) = none := rfl
  refine ⟨before, behind, prose, ?_⟩
  exact (sanitize_dataImage before behind (by decide) (by decide) oneLine prose).2.mpr ⟨by decide, by decide⟩

/-- The brackets before the image go with it. -/
theorem image_not_alone :
    Prosaic "[1] " ∧ Prosaic " b" ∧ Fence.open? ("[1] " ++ (dataImage "a" "x" ++ " b")) = none ∧
      sanitize {} ("[1] " ++ (dataImage "a" "x" ++ " b")) = "_(embedded image omitted)_ b" ∧
      sanitize {} ("[1] " ++ (dataImage "a" "x" ++ " b")) ≠ "[1] " ++ (imageOmitted ++ " b") := by
  have before : Prosaic "[1] " := ⟨Text.forall_mem_of_all (by decide), noAddress_of_parenthesis (by decide)⟩
  have behind : Prosaic " b" := ⟨Text.forall_mem_of_all (by decide), noAddress_of_parenthesis (by decide)⟩
  exact ⟨before, behind, by decide +kernel⟩

theorem detached_dataTarget (u s : Text) : Detached (dataTarget u ++ s) := detached_cons (by decide) _

/-- A link that takes the end of the description ends with the address behind it. -/
theorem behind_of_beyond (same : dataTarget u ++ s = y ++ behind) (beyond : y ≠ []) (address : ')' ∉ u)
    (found : afterDataLink? ('[' :: (x ++ (y ++ behind))) = some behind) : behind = s := by
  rw [← same] at found
  have inner : ')' ∉ ']' :: '(' :: (dataScheme ++ u) := by simpa [dataScheme] using address
  obtain ⟨label, url, opened, closer, shape⟩ : ∃ label url, label.length ≤ x.length ∧ ')' ∉ url ∧
      x ++ (dataTarget u ++ s) = label ++ (']' :: '(' :: url) ++ ')' :: behind := by
    rw [afterDataLink?] at found
    simp only [String.reduceToList] at found
    split at found
    next => cases found
    next label url opened =>
      split at found
      next =>
        obtain ⟨⟨front, back⟩, closed, rfl⟩ := Option.map_eq_some_iff.mp found
        obtain ⟨rfl, absent⟩ := Text.cut_singleton.mp closed
        refine ⟨label, front, ?_, absent, ?_⟩
        · exact Text.length_le_of_cut opened (w := dataScheme ++ u ++ ')' :: s) (by rw [dataTarget_append]; rfl)
        · rw [Text.eq_of_cut opened]
          simp
      next => cases found
  have whole : x ++ (']' :: '(' :: (dataScheme ++ u)) ++ ')' :: s = label ++ (']' :: '(' :: url) ++ ')' :: behind := by
    rw [← shape, dataTarget_append]
    simp
  rcases List.append_eq_append_iff.mp whole with ⟨z, longer, rest⟩ | ⟨z, longer, rest⟩
  · cases z with
    | nil => exact (List.cons.inj rest).2.symm
    | cons c z =>
      -- the address of the link would hold the bracket that ends the image
      obtain rfl := (List.cons.inj rest).1
      have short : label.length + 2 ≤ (x ++ (']' :: '(' :: (dataScheme ++ u))).length := by
        simp only [List.length_append, List.length_cons]
        omega
      have back := congrArg (List.drop (label.length + 2)) longer
      rw [List.drop_append_of_le_length short, List.drop_length_add_append] at back
      exact absurd (by rw [show url = _ from back]; simp) closer
  · cases z with
    | nil => exact (List.cons.inj rest).2
    | cons c z =>
      -- the bracket that ends the link would stand in the address of the image
      obtain rfl := (List.cons.inj rest).1
      have tail : behind = z ++ ')' :: s := (List.cons.inj rest).2
      have target : ']' :: '(' :: (dataScheme ++ u) = y ++ z := by
        rw [tail, dataTarget_append, ← List.append_assoc] at same
        exact List.append_cancel_right same
      rw [target, ← List.append_assoc] at longer
      have ends : x ++ y = label ++ (']' :: '(' :: url) ++ [')'] := List.append_cancel_right (longer.trans (by simp))
      have last := congrArg List.getLast? ends
      rw [List.getLast?_concat, List.getLast?_append_of_ne_nil x beyond] at last
      exact absurd (by rw [target]; exact List.mem_append_left z (List.mem_of_getLast? last)) inner

theorem not_infix_of_colon (absent : ':' ∉ s) : ¬ dataScheme <:+: s := fun inside => absent (inside.subset (by decide))

/-- The note for an image names no data URL. -/
theorem dataScheme_beside_image (inside : dataScheme <:+: v ++ (imageOmitted ++ w)) : dataScheme <:+: v ∨ dataScheme <:+: w := by
  let words : Text := "(embedded image omitted)"
  have note : imageOmitted = '_' :: (words ++ ['_']) := rfl
  have absent : '_' ∉ dataScheme := by decide
  rw [note, List.cons_append, List.append_assoc, List.singleton_append] at inside
  refine (infix_of_separated inside absent).imp_right fun behind => ?_
  exact (infix_of_separated behind absent).resolve_left (not_infix_of_colon (by decide))

theorem dataScheme_of_chunks (reading : Reading d after q b s ps) (simple : Simple s) (inside : dataScheme <:+: ps.flatMap (chunk d)) :
    dataScheme <:+: s := by
  induction reading with
  | done => exact inside
  | @more q b a r p ps token rest ih =>
    have whole := Reading.more token rest
    obtain ⟨v, problem, rfl, written⟩ := token.simple_text simple.start
    have later : dataScheme <:+: ps.flatMap (chunk d) → dataScheme <:+: a ++ r := fun there =>
      (ih simple.behind there).trans (List.suffix_append a r).isInfix
    rw [List.flatMap_cons] at inside
    rcases written with ⟨c, rfl, rfl⟩ | rfl | rfl | rfl
    · rcases List.infix_cons_iff.mp inside with starts | there
      · have echoes : ∀ c ∈ ['d', 'a', 't', 'a'], Echoes d c := by
          intro c inside
          simp only [List.mem_cons, List.not_mem_nil, or_false] at inside
          rcases inside with rfl | rfl | rfl | rfl <;> cases d <;> exact ⟨by decide, by decide⟩
        exact (prefix_of_chunks (x := ['d', 'a', 't', 'a']) whole simple echoes (by decide) starts).isInfix
      · exact later there
    · have brace : '\x7d' ∉ dataScheme := by decide
      exact later ((infix_of_separated (v := ['\\']) inside brace).resolve_left (not_infix_of_colon (by decide)))
    · have semicolon : ';' ∉ dataScheme := by decide
      exact later ((infix_of_separated (v := ['&', 'g', 't']) inside semicolon).resolve_left (not_infix_of_colon (by decide)))
    · exact later ((dataScheme_beside_image (v := []) inside).resolve_left (not_infix_of_colon (by decide)))

theorem not_infix_longLineNote (d : Dialect) : ¬ dataScheme <:+: d.comment longLineNote :=
  not_infix_of_colon (by cases d <;> decide)

theorem not_infix_label (before : ¬ dataScheme <:+: p) (label : ¬ dataScheme <:+: a) : ¬ dataScheme <:+: p ++ '!' :: '[' :: a := by
  intro inside
  rcases infix_of_separated inside (by decide) with here | here
  · exact before here
  · have bracket : '[' ∉ dataScheme := by decide
    exact label ((infix_of_separated (v := []) here bracket).resolve_left (not_infix_of_colon (by decide)))

/-- Text that is read character by character where the scanner comes to it is part of the written line. -/
theorem infix_sanitize {e : Char} (reading : Reading rules.dialect (x ++ after) true none p ps) (before : Simple p) (simple : Simple x)
    (own : ∀ q b, Reading rules.dialect after q b x (x.map fun c => .plain [c])) (first : x = e :: y) (solid : Text.isBlank e = false)
    (other : e ∉ ['`', '~']) (oneLine : Text.IsLine (p ++ (x ++ after))) (prose : Fence.open? (p ++ (x ++ after)) = none)
    (fits : totalWidth rules.dialect (scanLine rules.dialect (p ++ (x ++ after))) ≤ rules.maxLine) :
    x <:+: sanitize rules (p ++ (x ++ after)) := by
  have front := own (true && p.all isLead) (p.getLast?.or none)
  obtain ⟨qs, back⟩ : ∃ qs, Reading rules.dialect [] (true && p.all isLead) (p.getLast?.or none) (x ++ after)
      ((x.map fun c => .plain [c]) ++ qs) := ⟨_, Reading.append (by rwa [List.append_nil]) (reading_scan ..)⟩
  obtain ⟨-, flags, last, afterText, written⟩ := sanitize_behind reading before oneLine prose back
  obtain ⟨last', afterText', whole⟩ := weld_simple front simple flags qs last afterText
  rw [chunks_map] at whole
  have unopened := open?_chunks (v := y ++ weld rules.dialect last' false afterText' (settle flags qs)) reading before prose solid other
  rw [← List.cons_append, ← first] at unopened
  rw [written, if_pos fits, whole, guardFence_of_none unopened]
  exact ⟨_, _, List.append_assoc ..⟩

/-- Where the scanner comes to the end of the description, the address is text. -/
theorem infix_of_within (reading : Reading rules.dialect (dataTarget u ++ s) true none p ps) (simple : Simple p)
    (oneLine : Text.IsLine (p ++ (dataTarget u ++ s))) (prose : Fence.open? (p ++ (dataTarget u ++ s)) = none)
    (fits : totalWidth rules.dialect (scanLine rules.dialect (p ++ (dataTarget u ++ s))) ≤ rules.maxLine) :
    dataScheme <:+: sanitize rules (p ++ (dataTarget u ++ s)) ∧
      ((∀ c ∈ u, isUrlChar c = true) → dataScheme ++ u <:+: sanitize rules (p ++ (dataTarget u ++ s))) := by
  have marks : (∀ c ∈ [']', '('], isSpecial rules.dialect c = false) ∧ ∀ c ∈ dataScheme, isSpecial rules.dialect c = false := by
    cases rules.dialect <;> exact ⟨ordinary_of_all (by decide), ordinary_of_all (by decide)⟩
  have letters : ∀ c ∈ dataScheme, isUrlChar c = true := Text.forall_mem_of_all (by decide)
  have others : (∀ c ∈ [']', '('], c ∉ ['`', '\\', '<', '\x7b']) ∧ ∀ c ∈ ['`', '\\', '<', '\x7b'], isUrlChar c = false :=
    ⟨Text.forall_mem_of_all (by decide), Text.forall_mem_of_all (by decide)⟩
  -- the start of the target, as far as it is read character by character
  have part : ∀ v r, dataTarget u ++ s = ([']', '('] ++ v) ++ r → (∀ c ∈ v, isUrlChar c = true) →
      (∀ q b, Reading rules.dialect r q b v (v.map fun c => .plain [c])) → v <:+: sanitize rules (p ++ (dataTarget u ++ s)) := by
    intro v r shape chars own
    have plain : Simple ([']', '('] ++ v) := Simple.append others.1 fun c inside mark => by
      have char := chars c inside
      rw [others.2 c mark] at char
      cases char
    rw [shape] at reading oneLine prose fits ⊢
    refine (List.suffix_append [']', '('] v).isInfix.trans ?_
    refine infix_sanitize reading simple plain (fun q b => ?_) rfl (by decide) (by decide) oneLine prose fits
    rw [List.map_append]
    exact (Reading.ordinary marks.1).append (own _ _)
  refine ⟨?_, fun chars => ?_⟩
  · refine part dataScheme (u ++ ')' :: s) ?_ letters fun _ _ => .ordinary marks.2
    rw [dataTarget_append]
    simp
  · have all : ∀ c ∈ dataScheme ++ u, isUrlChar c = true := fun c inside =>
      (List.mem_append.mp inside).elim (letters c) (chars c)
    refine part (dataScheme ++ u) (')' :: s) ?_ all fun _ _ => .url all (by simp)
    rw [dataTarget_append]
    rfl

/-- Where a link takes the end of the description, the note stands for the address too. -/
theorem not_infix_of_overrun (overrun : Overrun rules.dialect true none p (dataTarget u ++ s)) (simple : Simple p) (behind : Simple s)
    (before : ¬ dataScheme <:+: p) (after : ¬ dataScheme <:+: s) (address : ')' ∉ u) (oneLine : Text.IsLine (p ++ (dataTarget u ++ s)))
    (prose : Fence.open? (p ++ (dataTarget u ++ s)) = none) : ¬ dataScheme <:+: sanitize rules (p ++ (dataTarget u ++ s)) := by
  obtain ⟨front, bang, x, y, r, ps, rfl, rest, beyond, mark, found, reading⟩ := overrun
  rw [rest] at found
  obtain rfl := behind_of_beyond rest beyond address found
  rw [List.append_assoc] at oneLine prose ⊢
  have shape : bang ++ '[' :: x ++ (dataTarget u ++ r) = bang ++ '[' :: (x ++ y) ++ r := by
    rw [rest]
    simp
  have found' : afterDataLink? ('[' :: (x ++ y ++ r)) = some r := by rwa [List.append_assoc]
  obtain ⟨q, b, qs, back, -, flags, last, written⟩ := sanitize_link reading simple.start mark shape found' oneLine prose
  rw [written, weld_whole back behind]
  split
  · intro inside
    rcases dataScheme_beside_image inside with here | here
    · exact before ((dataScheme_of_chunks reading simple.start here).trans (List.prefix_append _ _).isInfix)
    · exact after (dataScheme_of_chunks back behind here)
  · exact not_infix_longLineNote rules.dialect

/-- The address of an image is left in the written line exactly if no link that begins before it takes the end of its description
and the line fits. An address of characters of a URL is left as it stands. -/
theorem dataScheme_sanitize_iff (before : Simple p) (label : Simple a) (behind : Simple s) (unnamed : ¬ dataScheme <:+: p)
    (unnamed' : ¬ dataScheme <:+: a) (unnamed'' : ¬ dataScheme <:+: s) (address : ')' ∉ u)
    (oneLine : Text.IsLine (p ++ (dataImage a u ++ s))) (prose : Fence.open? (p ++ (dataImage a u ++ s)) = none) :
    (dataScheme <:+: sanitize rules (p ++ (dataImage a u ++ s)) ↔
      overruns (dataTarget u ++ s) 0 (p ++ '!' :: '[' :: a) = false ∧
        totalWidth rules.dialect (scanLine rules.dialect (p ++ (dataImage a u ++ s))) ≤ rules.maxLine) ∧
      ((∀ c ∈ u, isUrlChar c = true) →
        (dataScheme ++ u <:+: sanitize rules (p ++ (dataImage a u ++ s)) ↔ dataScheme <:+: sanitize rules (p ++ (dataImage a u ++ s)))) := by
  have line : p ++ (dataImage a u ++ s) = (p ++ '!' :: '[' :: a) ++ (dataTarget u ++ s) := by simp [dataImage]
  have simple : Simple (p ++ '!' :: '[' :: a) :=
    before.append (Simple.append (a := ['!', '[']) (Text.forall_mem_of_all (by decide)) label)
  rw [line] at oneLine prose ⊢
  rcases reading_or_overrun (d := rules.dialect) simple (detached_dataTarget u s) true none with ⟨within, ps, reading⟩ | ⟨reaches, overrun⟩
  · by_cases fits : totalWidth rules.dialect (scanLine rules.dialect (p ++ '!' :: '[' :: a ++ (dataTarget u ++ s))) ≤ rules.maxLine
    · obtain ⟨left, whole⟩ := infix_of_within reading simple oneLine prose fits
      exact ⟨iff_of_true left ⟨within, fits⟩, fun chars => iff_of_true (whole chars) left⟩
    · obtain ⟨flags, written⟩ := sanitize_line rules oneLine prose
      have gone := not_infix_longLineNote rules.dialect
      rw [written, if_neg fits]
      refine ⟨iff_of_false gone fun kept => fits kept.2, fun _ => iff_of_false (fun here => gone ?_) gone⟩
      exact (List.prefix_append dataScheme u).isInfix.trans here
  · have gone := not_infix_of_overrun overrun simple behind (not_infix_label unnamed unnamed') unnamed'' address oneLine prose
    refine ⟨iff_of_false gone fun kept => ?_, fun _ => iff_of_false (fun here => gone ?_) gone⟩
    · rw [reaches] at kept
      exact Bool.noConfusion kept.1
    · exact (List.prefix_append dataScheme u).isInfix.trans here

/-- The bracket before the image takes the end of its description. -/
theorem dataScheme_sanitize_bracketed :
    Fence.open? ("[1] " ++ (dataImage "a" "x" ++ " b")) = none ∧ overruns (dataTarget "x" ++ " b") 0 ("[1] " ++ '!' :: '[' :: "a") = true ∧
      ¬ dataScheme <:+: sanitize {} ("[1] " ++ (dataImage "a" "x" ++ " b")) := by
  have oneLine : Text.IsLine ("[1] " ++ (dataImage "a" "x" ++ " b")) := by
    unfold Text.IsLine
    decide
  have prose : Fence.open? ("[1] " ++ (dataImage "a" "x" ++ " b")) = none := rfl
  have reaches : overruns (dataTarget "x" ++ " b") 0 ("[1] " ++ '!' :: '[' :: "a") = true := rfl
  refine ⟨prose, reaches, fun left => ?_⟩
  have kept := (dataScheme_sanitize_iff (by decide) (by decide) (by decide) (not_infix_of_colon (by decide)) (not_infix_of_colon (by decide))
    (not_infix_of_colon (by decide)) (by decide) oneLine prose).1.mp left
  rw [reaches] at kept
  exact Bool.noConfusion kept.1

/-- A link in the description closes the bracket of the image, and its payload is left. -/
theorem payload_survives :
    Simple "a [b](c) d" ∧ ¬ dataScheme <:+: "a [b](c) d" ∧ Fence.open? (dataImage "a [b](c) d" "x") = none ∧
      sanitize {} (dataImage "a [b](c) d" "x") = "![a [b](c) d](data:x)" ∧
      dataScheme ++ ['x'] <:+: sanitize {} (dataImage "a [b](c) d" "x") := by
  decide +kernel

end NotebookPages.Markup
