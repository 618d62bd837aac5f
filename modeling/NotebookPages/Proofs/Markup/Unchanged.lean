import NotebookPages.Proofs.Markup.Idempotence

/-! When a pass leaves a line as it was. A piece that is rewritten begins with another character than its source, a tag
that is spelled otherwise ends elsewhere, and removed markup makes the line lighter; so a line stays as it was only if
every piece of it does. Not every piece that changes is a problem. -/

namespace NotebookPages.Markup

open Piece

/-- The piece is written otherwise although nothing is wrong with it: a declaration is left out, an autolink becomes a
link, and a tag is spelled as the dialect wants it. -/
inductive Piece.Unnoticed (d : Dialect) : Piece → Prop where
  | declaration {source : Text} : Unnoticed d (.dropped source)
  | autolink {url : Text} (mdx : d = .mdx) (valid : IsUrl url) : Unnoticed d (linkPiece d url)
  | tag {source : Text} {t : Tag} (other : t.render d ≠ source) : Unnoticed d (.tag source t)

/-- Nothing is wrong with the line, but some piece of it is written otherwise. -/
def Line.Unnoticed (d : Dialect) (l : Line) : Prop := l.problems = [] ∧ ∃ p ∈ l.pieces, p.Unnoticed d

variable {rules : Rules} {held : Option Fence} {source : Text} {l : Line} {d : Dialect} {q : Bool} {b : Option Char}
  {a r s v w : Text} {p : Piece} {ps : List Piece} {flags : List Bool} {last : Option Char} {afterText : Bool}

/-- A text stands for itself or is written with another first character. -/
theorem Token.text_cases {problem : Option Problem} (token : Token d q b a r (.text s v problem)) :
    v = a ∧ problem = none ∨ ∃ c x e y, a = c :: x ∧ v = e :: y ∧ c ≠ e := by
  cases token with
  | plain | backslash | escape | code | ticks | comment | bang | bracket | quote | angle | keptComment | keptAutolink =>
    exact Or.inl ⟨rfl, rfl⟩
  | brace mdx bare =>
    refine Or.inr ⟨_, _, _, _, rfl, rfl, ?_⟩
    rcases bare with ⟨rfl, -⟩ | rfl <;> decide
  | link mark found =>
    obtain ⟨x, rfl⟩ := eq_of_afterDataLink? found
    rcases mark with rfl | rfl <;> exact Or.inr ⟨_, _, _, _, rfl, rfl, by decide⟩
  | greater | less | autolink => exact Or.inr ⟨_, _, _, _, rfl, rfl, by decide⟩
  | @htmlComment body =>
    obtain ⟨⟨x, shape⟩, -⟩ := isComment_comment (Text.trim body)
    exact Or.inr ⟨_, _, _, _, rfl, shape, by decide⟩
  | dataImage spelled =>
    obtain ⟨front, rfl⟩ := spelled.closes
    exact Or.inr ⟨_, _, _, _, rfl, rfl, by decide⟩

theorem literal_of_weld (reading : Reading d [] q b s ps) (kept : ∀ p ∈ settle flags ps, p.shown? d ≠ none)
    (same : weld d last false afterText (settle flags ps) = s) : ∀ p ∈ settle flags ps, p.Literal d := by
  induction reading generalizing flags last afterText with
  | done => simp [settle]
  | @more q b a r p ps token _ ih =>
    rw [List.append_nil] at token
    cases p with
    | text own v problem =>
      rw [settle_text] at kept same ⊢
      rw [weld_text, space_of_tight, List.nil_append] at same
      rcases token.text_cases with ⟨rfl, rfl⟩ | ⟨c, x, e, y, rfl, rfl, other⟩
      · obtain rfl : own = v := token.source_eq
        have later := ih (fun p member => kept p (List.mem_cons_of_mem _ member)) (List.append_cancel_left same)
        exact List.forall_mem_cons.mpr ⟨⟨rfl, rfl⟩, later⟩
      · exact absurd (List.cons.inj same).1.symm other
    | tag own t =>
      obtain rfl : own = a := token.source_eq
      cases token with
      | tag spelled found =>
        rcases @settle_tag own ps flags t with kind | kind
        · rw [kind] at kept same ⊢
          rw [weld_tag] at same
          -- the tag as it is written and the tag as it was read end at the same place
          have read := Tag.read?_render spelled.wellFormed d (weld d ((t.render d).getLast?.or last) false false (settle flags.tail ps))
          rw [same, found] at read
          have rest := (Prod.mk.inj (Option.some.inj read)).2
          have later := ih (fun p member => kept p (List.mem_cons_of_mem _ member)) rest.symm
          rw [← rest] at same
          exact List.forall_mem_cons.mpr ⟨List.append_cancel_right same, later⟩
        · rw [kind] at kept
          exact absurd rfl (kept _ List.mem_cons_self)
    | dropped own => exact absurd rfl (kept _ List.mem_cons_self)
    | stray own => cases token

theorem weld_plains (x : Text) (flags : List Bool) (ps : List Piece) (last : Option Char) (afterText : Bool) : ∃ last' afterText',
    weld d last false afterText (settle flags (x.map (fun c => .plain [c]) ++ ps)) =
      x ++ weld d last' false afterText' (settle flags ps) := by
  induction x generalizing last afterText with
  | nil => exact ⟨last, afterText, rfl⟩
  | cons c x ih =>
    obtain ⟨last', afterText', later⟩ := ih (([c].getLast?).or last) true
    refine ⟨last', afterText', ?_⟩
    rw [List.map_cons, List.cons_append, settle_plain, weld_plain, space_of_tight, later]
    rfl

theorem scanLine_escape {blanks : Text} (blank : Text.Blank blanks) {m : Char} (mark : Text.isPunctuation m = true) (r : Text) :
    ∃ ps, scanLine d (blanks ++ '\\' :: m :: r) = blanks.map (fun c => .plain [c]) ++ .plain ['\\', m] :: ps := by
  have lead : Reading d ('\\' :: m :: r ++ []) true none blanks (blanks.map fun c => .plain [c]) :=
    .ordinary fun c inside => isSpecial_of_isBlank (blank c inside)
  have line := lead.append (.more (a := ['\\', m]) (.escape mark) (reading_scan d _ _ r))
  exact ⟨_, line.scan_eq⟩

/-- A line to which the guard adds its backslash is not the line that was read. -/
theorem weld_of_guardFence (same : Line.guardFence (weld d none false false (settle flags (scanLine d source))) = source) :
    weld d none false false (settle flags (scanLine d source)) = source := by
  cases found : Fence.open? (weld d none false false (settle flags (scanLine d source))) with
  | none => rwa [guardFence_of_none found] at same
  | some fence =>
    obtain ⟨blanks, info, opening⟩ := Fence.open?_sound found
    obtain ⟨n, long⟩ := opening.exists_length
    have mark : Text.isPunctuation fence.marker = true := by rcases opening.marker with same | same <;> rw [same] <;> decide
    have written := Fence.Opening.guardFence opening
    rw [same, long, List.replicate_succ, List.cons_append] at written
    -- the backslash of the source is written again, so what was to be guarded began with a backslash
    obtain ⟨ps, pieces⟩ := scanLine_escape (d := d) opening.blank mark (List.replicate n fence.marker ++ info)
    rw [← written] at pieces
    obtain ⟨last, afterText, shape⟩ := weld_plains (d := d) blanks flags (.plain ['\\', fence.marker] :: ps) none false
    rw [← pieces, settle_plain, weld_plain, space_of_tight, List.nil_append] at shape
    have body : Text.trimStart (weld d none false false (settle flags (scanLine d source))) =
        '\\' :: ([fence.marker] ++ weld d (['\\', fence.marker].getLast?.or last) false true (settle flags ps)) := by
      rw [shape, Text.trimStart_of_blank opening.blank]
      rfl
    rw [Fence.open?_eq_none_of_head body (by decide)] at found
    cases found

theorem sources_settle (flags : List Bool) (ps : List Piece) : (settle flags ps).flatMap Piece.source = ps.flatMap Piece.source := by
  induction ps generalizing flags with
  | nil => rfl
  | cons p ps ih =>
    cases p with
    | text | dropped | stray => simp only [settle, List.flatMap_cons, ih]
    | tag own t =>
      rcases @settle_tag own ps flags t with kind | kind
      · rw [kind, List.flatMap_cons, List.flatMap_cons, ih]
      · rw [kind, List.flatMap_cons, List.flatMap_cons, ih]
        rfl

/-- Prose is written as it was read exactly if every piece of it stands for itself. -/
theorem Line.Settled.render_eq_iff {s : Text} (settled : (Line.prose s ps).Settled rules held source) :
    (Line.prose s ps).render rules.dialect = source ↔ ∀ p ∈ ps, p.Literal rules.dialect := by
  cases settled with
  | prose flags outside =>
    constructor
    · intro fixed
      have written := weld_of_guardFence fixed
      have bound : weight (weld rules.dialect none false false (Piece.settle flags (scanLine rules.dialect source))) +
          totalCost loss (Piece.settle flags (scanLine rules.dialect source)) ≤ weight source :=
        weight_weld (reading_scan rules.dialect true none source)
      rw [written] at bound
      have idle := cost_eq_zero (show totalCost loss (Piece.settle flags (scanLine rules.dialect source)) = 0 by omega)
      refine literal_of_weld (reading_scan rules.dialect true none source) (fun p member => ?_) written
      cases p with
      | text | tag => simp [shown?]
      | dropped | stray => cases idle _ member
    · intro literal
      have open' := (isProse_iff.mp outside).2
      rw [Line.render, weld_of_literal literal, sources_settle, sources_scanLine, guardFence_of_none open']

/-- A piece that is no problem stands for itself or changes unnoticed. -/
theorem Token.unnoticed_iff (token : Token d q b a r p) (silent : p.problem? = none) : p.Unnoticed d ↔ ¬ p.Literal d := by
  constructor
  · intro unnoticed literal
    cases unnoticed with
    | declaration => cases literal
    | autolink mdx =>
      subst mdx
      exact absurd (List.cons.inj literal.1).1 (by decide)
    | tag other => exact other literal
  · intro other
    cases token with
    | plain | backslash | escape | code | ticks | comment | bang | bracket | quote | angle | keptComment | keptAutolink =>
      exact absurd ⟨rfl, rfl⟩ other
    | brace | link | greater | less | htmlComment | dataImage => cases silent
    | declaration => exact .declaration
    | autolink mdx valid =>
      subst mdx
      exact .autolink rfl valid
    | tag => exact .tag other

theorem Reading.token_of_mem {after : Text} (reading : Reading d after q b s ps) (member : p ∈ ps) : ∃ q b a r, Token d q b a r p := by
  induction reading with
  | done => cases member
  | more token _ ih =>
    rcases List.mem_cons.mp member with rfl | member
    · exact ⟨_, _, _, _, token⟩
    · exact ih member

theorem mem_of_mem_settle (member : p ∈ settle flags ps) (paired : p.problem? ≠ some .unclosedTag) : p ∈ ps := by
  induction ps generalizing flags with
  | nil => cases member
  | cons first ps ih =>
    cases first with
    | tag own t =>
      rcases @settle_tag own ps flags t with kind | kind
      all_goals
        rw [kind] at member
        rcases List.mem_cons.mp member with rfl | member
      · exact List.mem_cons_self
      · exact List.mem_cons_of_mem _ (ih member)
      · exact absurd rfl paired
      · exact List.mem_cons_of_mem _ (ih member)
    | text | dropped | stray =>
      rcases List.mem_cons.mp member with rfl | member
      · exact List.mem_cons_self
      · exact List.mem_cons_of_mem _ (ih member)

/-- Where nothing is wrong with a line, it changes exactly if some piece of it changes unnoticed. -/
theorem Line.Settled.render_ne_iff (settled : l.Settled rules held source) (silent : l.problems = []) :
    l.render rules.dialect ≠ source ↔ l.Unnoticed rules.dialect := by
  cases settled with
  | fenced => simp [Line.render, Line.Unnoticed, Line.pieces]
  | replaced => cases silent
  | prose flags outside fits =>
    have pieces : ∀ p ∈ Piece.settle flags (scanLine rules.dialect source), p.Unnoticed rules.dialect ↔ ¬ p.Literal rules.dialect := by
      intro p member
      have none := List.filterMap_eq_nil_iff.mp silent p member
      obtain ⟨_, _, _, _, token⟩ := (reading_scan rules.dialect true Option.none source).token_of_mem
        (mem_of_mem_settle member (by rw [none]; simp))
      exact token.unnoticed_iff none
    rw [Ne, (Line.Settled.prose flags outside fits).render_eq_iff, not_forall, Line.Unnoticed, and_iff_right silent]
    constructor
    · rintro ⟨p, other⟩
      obtain ⟨member, other⟩ := Classical.not_imp.mp other
      exact ⟨p, member, (pieces p member).mpr other⟩
    · rintro ⟨p, member, unnoticed⟩
      exact ⟨p, fun literal => (pieces p member).mp unnoticed (literal member)⟩

end NotebookPages.Markup
