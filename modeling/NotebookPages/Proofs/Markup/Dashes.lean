import NotebookPages.Document.Header
import NotebookPages.Proofs.Markup.Measures
import NotebookPages.Proofs.Markup.SecondPass
import NotebookPages.Proofs.Markup.Trimmed

/-! Which lines are written as dashes. Removed markup leaves a blank between two texts, so the dashes stand side by side
in the source, with nothing but removed markup before them, and only removed markup and blanks behind them. -/

namespace NotebookPages.Markup

open Piece

/-- Three dashes side by side, nothing that is written before them, and what is written behind them. -/
def Piece.Dashes (d : Dialect) (ends : Text) (ks : List Piece) : Prop :=
  ∃ front back, ks = front ++ (Header.delimiter.map (fun c => plain [c]) ++ back) ∧ front.flatMap (chunk d) = [] ∧
    back.flatMap (chunk d) = ends

/-- The line is written as three dashes with these ends. -/
def Line.Dashed (d : Dialect) (ends : Text) : Line → Prop
  | .fenced source => source = Header.delimiter ++ ends
  | .prose _ ks => Piece.Dashes d ends ks
  | .replaced _ => False

variable {rules : Rules} {held : Option Fence} {source : Text} {l : Line} {d : Dialect} {q : Bool} {b : Option Char}
  {a r s v w ends : Text} {p : Piece} {ps ks front : List Piece} {flags : List Bool} {last : Option Char} {gap afterText : Bool}

theorem space_of_blank (blank : Text.Blank v) : space last gap afterText v = [] := by
  cases v with
  | nil => simp [space]
  | cons c v => simp [space, blank c List.mem_cons_self]

theorem space_of_start : space none gap afterText v = [] := by simp [space]

/-- Blanks are written one after another. -/
theorem weld_of_blank (blank : Text.Blank (ks.flatMap (chunk d))) : weld d last gap afterText ks = ks.flatMap (chunk d) := by
  induction ks generalizing last gap afterText with
  | nil => rfl
  | cons p ks ih =>
    rw [List.flatMap_cons] at blank ⊢
    have here : Text.Blank (chunk d p) := fun c inside => blank c (List.mem_append_left _ inside)
    have later : Text.Blank (ks.flatMap (chunk d)) := fun c inside => blank c (List.mem_append_right _ inside)
    cases p with
    | text own v problem => rw [weld_text, space_of_blank (show Text.Blank v from here), ih later, List.nil_append, chunk]
    | tag own t => rw [weld_tag, ih later, chunk]
    | dropped | stray => exact (weld_removed rfl).trans (ih later)

theorem chunks_subset_weld : ks.flatMap (chunk d) ⊆ weld d last gap afterText ks := by
  induction ks generalizing last gap afterText with
  | nil => exact List.Subset.refl _
  | cons p ks ih =>
    rw [List.flatMap_cons]
    cases p with
    | text own v problem =>
      rw [weld_text]
      refine List.append_subset.mpr ⟨fun c inside => ?_, fun c inside => ?_⟩
      · exact List.mem_append_right _ (List.mem_append_left _ inside)
      · exact List.mem_append_right _ (List.mem_append_right _ (ih inside))
    | tag own t =>
      rw [weld_tag]
      refine List.append_subset.mpr ⟨fun c inside => List.mem_append_left _ inside, fun c inside => ?_⟩
      exact List.mem_append_right _ (ih inside)
    | dropped | stray =>
      rw [weld_removed rfl]
      exact ih

theorem weld_eq_blank_iff (blank : Text.Blank ends) : weld d last gap afterText ks = ends ↔ ks.flatMap (chunk d) = ends := by
  constructor
  · rintro rfl
    exact (weld_of_blank fun c inside => blank c (chunks_subset_weld inside)).symm
  · rintro rfl
    exact weld_of_blank blank

theorem dash_ordinary (d : Dialect) : isSpecial d '-' = false := by cases d <;> decide

/-- A dash is written for a dash of the source, unless removed markup comes first. -/
theorem weld_first_dash (token : Token d q b a r p) (tight : (gap && afterText) = false)
    (same : weld d last gap afterText (settle flags (p :: ps)) = '-' :: w) :
    p = .plain ['-'] ∧ weld d (some '-') false true (settle flags ps) = w ∨
      ∃ p' flags', chunk d p' = [] ∧ settle flags (p :: ps) = p' :: settle flags' ps ∧
        weld d last true afterText (settle flags' ps) = '-' :: w := by
  have direct : ∀ v, space last gap afterText v = [] := by simp [space, tight]
  cases p with
  | text own v problem =>
    rw [settle_text, weld_text, direct, List.nil_append] at same
    cases token.shape with
    | kept =>
      obtain ⟨c, x, rfl⟩ := List.exists_cons_of_ne_nil token.ne_nil
      obtain rfl : c = '-' := (List.cons.inj same).1
      obtain ⟨rfl, plain⟩ := token.eq_of_ordinary (dash_ordinary d)
      exact Or.inl ⟨plain, (List.cons.inj same).2⟩
    | rewritten replaces =>
      obtain ⟨c, x, rfl, mark⟩ := replaces.written
      obtain rfl : c = '-' := (List.cons.inj same).1
      exact absurd mark (by decide)
    | removed hidden => cases hidden
  | tag own t =>
    cases token with
    | tag spelled =>
      rcases @settle_tag a ps flags t with kind | kind
      · obtain ⟨x, written⟩ := Tag.render_eq_cons spelled.wellFormed d
        rw [kind, weld_tag, written] at same
        exact absurd (List.cons.inj same).1 (by decide)
      · rw [kind, weld_removed rfl] at same
        exact Or.inr ⟨_, _, rfl, kind, same⟩
  | dropped own =>
    rw [settle_dropped, weld_removed rfl] at same
    exact Or.inr ⟨_, _, rfl, settle_dropped, same⟩
  | stray own => cases token

/-- Where nothing has been written yet, removed markup may come first. -/
theorem weld_start_dash (reading : Reading d [] q b s ps) (same : weld d last gap false (settle flags ps) = '-' :: w) :
    ∃ front q' b' s' ps' flags', Reading d [] q' b' s' ps' ∧ settle flags ps = front ++ .plain ['-'] :: settle flags' ps' ∧
      front.flatMap (chunk d) = [] ∧ weld d (some '-') false true (settle flags' ps') = w := by
  induction reading generalizing gap flags with
  | done => cases same
  | more token rest ih =>
    rcases weld_first_dash token (Bool.and_false gap) same with ⟨rfl, later⟩ | ⟨p', flags', empty, settled, later⟩
    · exact ⟨[], _, _, _, _, flags, rest, rfl, rfl, later⟩
    · obtain ⟨front, q', b', s', ps', flags'', reading', shape, none, more⟩ := ih later
      refine ⟨p' :: front, q', b', s', ps', flags'', reading', ?_, ?_, more⟩
      · rw [settled, shape, List.cons_append]
      · rw [List.flatMap_cons, empty, none, List.nil_append]

/-- Behind a dash, removed markup would leave a blank. -/
theorem weld_next_dash (reading : Reading d [] q b s ps) (same : weld d (some '-') false true (settle flags ps) = '-' :: w) :
    ∃ q' b' s' ps', Reading d [] q' b' s' ps' ∧ settle flags ps = .plain ['-'] :: settle flags ps' ∧
      weld d (some '-') false true (settle flags ps') = w := by
  cases reading with
  | done => cases same
  | more token rest =>
    rcases weld_first_dash token rfl same with ⟨rfl, later⟩ | ⟨p', flags', empty, settled, later⟩
    · exact ⟨_, _, _, _, rest, rfl, later⟩
    · rcases head?_weld_gap (show Text.isBlank '-' = false by decide) rest flags' '-' (by rw [later]; rfl) with blank | angle
      · exact absurd blank (by decide)
      · exact absurd angle (by decide)

theorem dashes_of_weld (reading : Reading d [] q b s ps) (blank : Text.Blank ends)
    (same : weld d none false false (settle flags ps) = Header.delimiter ++ ends) : Piece.Dashes d ends (settle flags ps) := by
  obtain ⟨front, _, _, _, ps₁, flags', reading₁, shape, nothing, same₁⟩ := weld_start_dash reading same
  obtain ⟨_, _, _, ps₂, reading₂, shape₂, same₂⟩ := weld_next_dash reading₁ same₁
  obtain ⟨_, _, _, ps₃, reading₃, shape₃, same₃⟩ := weld_next_dash reading₂ same₂
  refine ⟨front, settle flags' ps₃, ?_, nothing, (weld_eq_blank_iff blank).mp same₃⟩
  rw [shape, shape₂, shape₃]
  rfl

theorem weld_front (nothing : front.flatMap (chunk d) = []) : ∃ gap' afterText',
    weld d none gap afterText (front ++ ks) = weld d none gap' afterText' ks := by
  induction front generalizing gap afterText with
  | nil => exact ⟨gap, afterText, rfl⟩
  | cons p front ih =>
    rw [List.flatMap_cons, List.append_eq_nil_iff] at nothing
    obtain ⟨here, later⟩ := nothing
    cases p with
    | text own v problem =>
      obtain rfl : v = [] := here
      rw [List.cons_append, weld_text, space_of_start]
      exact ih later
    | tag own t =>
      rw [List.cons_append, weld_tag, show t.render d = [] from here]
      exact ih later
    | dropped | stray =>
      rw [List.cons_append, weld_removed rfl]
      exact ih later

theorem weld_of_dashes (dashes : Piece.Dashes d ends ks) (blank : Text.Blank ends) :
    weld d none false false ks = Header.delimiter ++ ends := by
  obtain ⟨front, back, rfl, nothing, behind⟩ := dashes
  obtain ⟨gap, afterText, start⟩ : ∃ gap afterText, weld d none false false
      (front ++ .plain ['-'] :: .plain ['-'] :: .plain ['-'] :: back) =
        weld d none gap afterText (.plain ['-'] :: .plain ['-'] :: .plain ['-'] :: back) := weld_front nothing
  have later : weld d (some '-') false true back = ends := (weld_eq_blank_iff blank).mpr behind
  refine start.trans ?_
  rw [weld_plain, weld_plain, weld_plain, space_of_start, space_of_tight, space_of_tight]
  exact congrArg (fun w => '-' :: '-' :: '-' :: w) later

theorem open?_dashes (ends : Text) : Fence.open? (Header.delimiter ++ ends) = none :=
  Fence.open?_eq_none_of_head (c := '-') rfl (by decide)

/-- The guard neither makes dashes nor touches them. -/
theorem guardFence_eq_dashes_iff : Line.guardFence w = Header.delimiter ++ ends ↔ w = Header.delimiter ++ ends := by
  constructor
  · intro same
    have front : (Text.trimStart (Line.guardFence w)).head? = some '-' := congrArg (fun t => (Text.trimStart t).head?) same
    rwa [guardFence_of_head (by rw [front]; decide)] at same
  · rintro rfl
    exact guardFence_of_none (open?_dashes ends)

/-- A line is written as dashes exactly if its pieces are dashes, up to removed markup and blanks at the end. -/
theorem Line.Settled.render_eq_dashes_iff (settled : l.Settled rules held source) (blank : Text.Blank ends) :
    l.render rules.dialect = Header.delimiter ++ ends ↔ l.Dashed rules.dialect ends := by
  cases settled with
  | fenced => exact Iff.rfl
  | prose flags =>
    rw [Line.render, guardFence_eq_dashes_iff]
    exact ⟨dashes_of_weld (reading_scan rules.dialect true none source) blank, fun dashes => weld_of_dashes dashes blank⟩
  | replaced =>
    refine ⟨fun same => ?_, False.elim⟩
    have first := congrArg List.head? same
    cases dialect : rules.dialect with
    | markdown =>
      rw [dialect] at first
      change some '<' = some '-' at first
      exact absurd first (by decide)
    | mdx =>
      rw [dialect] at first
      change some '\x7b' = some '-' at first
      exact absurd first (by decide)

end NotebookPages.Markup
