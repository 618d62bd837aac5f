import NotebookPages.Proofs.Markup.Reading

/-! What is written for the pieces of a line. A piece is kept, rewritten, written as a tag or removed, and what
stands in its place begins and ends so that neighbours see the same kind of text as before. -/

namespace NotebookPages.Markup

def isWrittenMark (c : Char) : Bool :=
  c == '\\' || c == '&' || c == '_' || c == '[' || c == '\x7b' || c == '<'

def isBoundary (c : Char) : Bool := Text.isPunctuation c && !isBacktick c

/-- `v` can be written in place of `a`. -/
structure Replaces (a v : Text) : Prop where
  starts : ∃ c x, a = c :: x ∧ isBoundary c = true
  stops : ∃ c, a.getLast? = some c ∧ isBoundary c = true
  written : ∃ c x, v = c :: x ∧ isWrittenMark c = true
  last : EndsUnticked v
  free : ∀ n, 0 < n → Free n a → Free n v

/-- What becomes of a piece once the tags of the document are paired. -/
inductive Shape (d : Dialect) (a : Text) : Piece → Prop where
  | kept : Shape d a (.plain a)
  | rewritten {v : Text} {problem : Option Problem} (replaces : Replaces a v) : Shape d a (.text a v problem)
  | tag {t : Tag} (spelled : Tag.Spelling a t) : Shape d a (.tag a t)
  | removed {p : Piece} {x : Text} (hidden : p.shown? d = none) (shape : a = '<' :: (x ++ ['>'])) : Shape d a p

variable {d : Dialect} {q : Bool} {b : Option Char} {a r s v after : Text} {p : Piece} {ps : List Piece} {n : Nat}

theorem getLast?_closed (c e : Char) (x : Text) : (c :: (x ++ [e])).getLast? = some e := by
  rw [← List.cons_append, List.getLast?_concat]

theorem isBoundary_iff {c : Char} : isBoundary c = true ↔ Text.isPunctuation c = true ∧ isBacktick c = false := by
  simp [isBoundary]

theorem not_letter_of_isBoundary {c : Char} (boundary : isBoundary c = true) : Text.isLetter c = false := by
  have mark := (isBoundary_iff.mp boundary).1
  simp only [Text.isPunctuation, Text.isAlphanumeric, Bool.and_eq_true, Bool.not_eq_true', Bool.or_eq_false_iff] at mark
  exact mark.2.1

theorem Replaces.unticked (replaces : Replaces a v) (s : Text) : Unticked (a ++ s) := by
  obtain ⟨c, x, rfl, boundary⟩ := replaces.starts
  exact unticked_cons (isBoundary_iff.mp boundary).2

theorem Replaces.endsUnticked (replaces : Replaces a v) : EndsUnticked a := by
  obtain ⟨c, last, boundary⟩ := replaces.stops
  intro e same
  obtain rfl : c = e := by simpa [last] using same
  exact (isBoundary_iff.mp boundary).2

theorem Replaces.written_unticked (replaces : Replaces a v) (s : Text) : Unticked (v ++ s) := by
  obtain ⟨c, x, rfl, mark⟩ := replaces.written
  exact unticked_cons (not_isBacktick (by decide) mark)

theorem Replaces.ofPlain {c e : Char} {x : Text} (starts : ∃ y, a = c :: y) (stops : a.getLast? = some e)
    (boundary : isBoundary c = true ∧ isBoundary e = true) (written : v = x)
    (mark : v.head?.any isWrittenMark = true) (plain : ∀ m ∈ x, isBacktick m = false) : Replaces a v := by
  subst written
  obtain ⟨y, rfl⟩ := starts
  refine ⟨⟨c, y, rfl, boundary.1⟩, ⟨e, stops, boundary.2⟩, ?_, endsUnticked_of_plain plain,
    fun n positive _ => free_of_plain positive plain⟩
  cases v with
  | nil => simp at mark
  | cons m v => exact ⟨m, v, rfl, by simpa using mark⟩

theorem replaces_imageOmitted {c e : Char} (starts : ∃ y, a = c :: y) (stops : a.getLast? = some e)
    (boundary : isBoundary c = true ∧ isBoundary e = true) : Replaces a imageOmitted :=
  .ofPlain starts stops boundary rfl (by decide) (plain_of_all (by decide))

theorem replaces_render {t : Tag} (spelled : Tag.Spelling a t) (d : Dialect) : Replaces a (t.render d) := by
  obtain ⟨front, shape⟩ := spelled.closes
  obtain ⟨back, written⟩ := Tag.render_eq_cons spelled.wellFormed d
  refine ⟨⟨'<', front ++ ['>'], shape, by decide⟩, ⟨'>', by rw [shape, getLast?_closed], by decide⟩,
    ⟨'<', back ++ ['>'], written, by decide⟩, ?_, fun n positive free => spelled.free_render positive free d⟩
  intro c last
  obtain rfl : '>' = c := by simpa [written, getLast?_closed] using last
  decide

theorem replaces_comment {body : Text} :
    Replaces ('<' :: '!' :: '-' :: '-' :: (body ++ ['-', '-', '>'])) (Dialect.mdx.comment (Text.trim body)) := by
  obtain ⟨⟨x, shape⟩, -⟩ := isComment_comment (Text.trim body)
  refine ⟨⟨'<', _, rfl, by decide⟩, ⟨'>', ?_, by decide⟩, ⟨'\x7b', _, shape, by decide⟩, ?_, ?_⟩
  · simpa using getLast?_closed '<' '>' ('!' :: '-' :: '-' :: (body ++ ['-', '-']))
  · intro c last
    obtain rfl : '\x7d' = c := by simpa [shape, getLast?_closed] using last
    decide
  · intro n positive free
    have opened : ∀ c ∈ ['<', '!', '-', '-'], isBacktick c = false := plain_of_all (by decide)
    have closed : Unticked ['-', '-', '>'] := unticked_cons (by decide)
    have inner := ((free_append_iff (s := body ++ ['-', '-', '>']) positive (endsUnticked_of_plain opened)).mp free).2
    exact free_comment positive (free_trim positive ((free_append_unticked positive closed).mp inner).1)

theorem replaces_autolink {url : Text} (valid : IsUrl url) :
    Replaces ('<' :: (url ++ ['>'])) ('[' :: (url ++ (']' :: '(' :: (url ++ [')'])))) := by
  refine .ofPlain ⟨_, rfl⟩ (getLast?_closed '<' '>' _) ⟨by decide, by decide⟩ rfl (by simp [isWrittenMark]) ?_
  have plain : ∀ c ∈ url, isBacktick c = false := fun c inside => not_isBacktick (by decide) (valid.1 c inside)
  intro c inside
  simp only [List.mem_cons, List.mem_append, List.not_mem_nil, or_false] at inside
  rcases inside with rfl | inside | rfl | rfl | inside | rfl
  · decide
  · exact plain c inside
  · decide
  · decide
  · exact plain c inside
  · decide

theorem Token.shape (token : Token d q b a r p) : Shape d a p := by
  cases token with
  | plain | backslash | escape | code | ticks | comment | bang | bracket | quote | angle | keptComment | keptAutolink =>
    exact .kept
  | @brace c _ mdx bare =>
    have boundary : isBoundary c = true := by rcases bare with ⟨rfl, -⟩ | rfl <;> decide
    have plain := (isBoundary_iff.mp boundary).2
    exact .rewritten (.ofPlain ⟨[], rfl⟩ rfl ⟨boundary, boundary⟩ rfl (by simp [isWrittenMark]) (by simpa [isBacktick] using plain))
  | @link bang x _ mark found =>
    obtain ⟨y, rfl⟩ := eq_of_afterDataLink? found
    rcases mark with rfl | rfl
    · exact .rewritten (replaces_imageOmitted ⟨_, rfl⟩ (getLast?_closed '[' ')' y) ⟨by decide, by decide⟩)
    · exact .rewritten (replaces_imageOmitted ⟨_, rfl⟩ (getLast?_closed '!' ')' ('[' :: y)) ⟨by decide, by decide⟩)
  | greater | less => exact .rewritten (.ofPlain ⟨[], rfl⟩ rfl ⟨by decide, by decide⟩ rfl (by decide) (plain_of_all (by decide)))
  | htmlComment => exact .rewritten replaces_comment
  | @declaration body => exact .removed (x := '!' :: body) rfl rfl
  | autolink mdx valid => exact .rewritten (replaces_autolink valid)
  | tag spelled => exact .tag spelled
  | dataImage spelled =>
    obtain ⟨front, rfl⟩ := spelled.closes
    exact .rewritten (replaces_imageOmitted ⟨_, rfl⟩ (getLast?_closed '<' '>' _) ⟨by decide, by decide⟩)

namespace Piece

/-- The blank in place of removed markup between two texts. -/
def space (last : Option Char) (gap afterText : Bool) (chunk : Text) : Text :=
  if gap && afterText && (last.any (!Text.isBlank ·) && chunk.head?.any (!Text.isBlank ·)) then [' '] else []

variable {last : Option Char} {gap afterText : Bool} {flags : List Bool} {t : Tag}

theorem space_cases (last : Option Char) (gap afterText : Bool) (chunk : Text) :
    space last gap afterText chunk = [] ∨ gap = true ∧ space last gap afterText chunk = [' '] := by
  unfold space
  split
  next here => exact Or.inr ⟨by simp_all, rfl⟩
  next => exact Or.inl rfl

theorem space_of_tight (last : Option Char) (afterText : Bool) (chunk : Text) : space last false afterText chunk = [] := by
  simp [space]

theorem weld_text {problem : Option Problem} : weld d last gap afterText (.text a v problem :: ps) =
    space last gap afterText v ++ (v ++ weld d (v.getLast?.or last) false true ps) := by
  simp [weld, shown?, space]

theorem weld_plain : weld d last gap afterText (.plain a :: ps) =
    space last gap afterText a ++ (a ++ weld d (a.getLast?.or last) false true ps) := weld_text

theorem weld_tag : weld d last gap afterText (.tag a t :: ps) =
    t.render d ++ weld d ((t.render d).getLast?.or last) false false ps := by
  simp [weld, shown?]

theorem weld_removed (hidden : p.shown? d = none) : weld d last gap afterText (p :: ps) = weld d last true afterText ps := by
  simp [weld, hidden]

theorem settle_text {problem : Option Problem} : settle flags (.text a v problem :: ps) = .text a v problem :: settle flags ps := rfl

theorem settle_plain : settle flags (.plain a :: ps) = .plain a :: settle flags ps := rfl

theorem settle_dropped : settle flags (.dropped a :: ps) = .dropped a :: settle flags ps := rfl

theorem settle_tag : settle flags (.tag a t :: ps) = .tag a t :: settle flags.tail ps ∨
    settle flags (.tag a t :: ps) = .stray a :: settle flags.tail ps := by
  by_cases kept : flags.head? = some true
  · exact Or.inl (by simp [settle, kept])
  · exact Or.inr (by simp [settle, kept])

end Piece

open Piece

theorem Token.settle (token : Token d q b a r p) (flags : List Bool) (ps : List Piece) :
    ∃ p' flags', Shape d a p' ∧ Piece.settle flags (p :: ps) = p' :: Piece.settle flags' ps := by
  cases token.shape with
  | kept => exact ⟨_, _, .kept, rfl⟩
  | rewritten replaces => exact ⟨_, _, .rewritten replaces, rfl⟩
  | @tag t spelled =>
    obtain ⟨x, closed⟩ := spelled.closes
    rcases @settle_tag a ps flags t with same | same
    · exact ⟨_, _, .tag spelled, same⟩
    · exact ⟨_, _, .removed rfl closed, same⟩
  | removed hidden closed =>
    cases p with
    | text s w problem => cases hidden
    | tag s t => cases hidden
    | dropped s => exact ⟨_, _, .removed rfl closed, rfl⟩
    | stray s => exact ⟨_, _, .removed rfl closed, rfl⟩

variable {last : Option Char} {gap afterText : Bool}

/-- The texts begin alike, or a mark gave way to a blank or to another mark. -/
def SameStart (s w : Text) : Prop :=
  w.head? = s.head? ∨
    (∃ c, s.head? = some c ∧ isBoundary c = true) ∧ ∀ c, w.head? = some c → Text.isBlank c = true ∨ isWrittenMark c = true

theorem SameStart.unticked {w : Text} (same : SameStart s w) (start : Unticked s) : Unticked w := by
  intro c first
  rcases same with same | ⟨-, marks⟩
  · exact start c (same.symm.trans first)
  · rcases marks c first with blank | mark
    · exact not_isBacktick (by decide) blank
    · exact not_isBacktick (by decide) mark

theorem SameStart.letter {w : Text} (same : SameStart s w) (letter : s.head?.any Text.isLetter = true) :
    w.head?.any Text.isLetter = true := by
  rcases same with same | ⟨⟨c, first, boundary⟩, -⟩
  · rw [same]
    exact letter
  · rw [first, Option.any_some, not_letter_of_isBoundary boundary] at letter
    cases letter

theorem SameStart.plain {w : Text} (same : SameStart s w) (plain : s.head?.any Text.isPunctuation = false) :
    w.head?.any Text.isPunctuation = false := by
  rcases same with same | ⟨⟨c, first, boundary⟩, -⟩
  · rw [same]
    exact plain
  · rw [first, Option.any_some, (isBoundary_iff.mp boundary).1] at plain
    cases plain

/-- After removed markup stands a blank or a tag. -/
theorem head?_weld_gap {l : Char} (solid : Text.isBlank l = false) (reading : Reading d after q b s ps) (flags : List Bool) :
    ∀ c, (weld d (some l) true true (settle flags ps)).head? = some c → Text.isBlank c = true ∨ c = '<' := by
  have spaced : ∀ {c v w}, v ≠ [] → (space (some l) true true v ++ (v ++ w)).head? = some c → Text.isBlank c = true ∨ c = '<' := by
    intro c v w some first
    cases v with
    | nil => contradiction
    | cons e v =>
      cases blank : Text.isBlank e with
      | true =>
        obtain rfl : e = c := by simpa [space, solid, blank] using first
        exact Or.inl blank
      | false =>
        obtain rfl : ' ' = c := by simpa [space, solid, blank] using first
        exact Or.inl (by decide)
  induction reading generalizing flags with
  | done => simp [settle, weld]
  | more token _ ih =>
    obtain ⟨p, flags', shape, settled⟩ := token.settle flags _
    intro c first
    rw [settled] at first
    cases shape with
    | kept => exact spaced token.ne_nil (by rwa [weld_plain] at first)
    | rewritten replaces =>
      obtain ⟨e, x, rfl, -⟩ := replaces.written
      exact spaced (List.cons_ne_nil e x) (by rwa [weld_text] at first)
    | tag spelled =>
      obtain ⟨x, written⟩ := Tag.render_eq_cons spelled.wellFormed d
      rw [weld_tag, written] at first
      exact Or.inr (Option.some.inj first).symm
    | removed hidden => exact ih flags' c (by rwa [weld_removed hidden] at first)

/-- Where a text ends without a blank, what follows it begins as before. -/
theorem sameStart_weld {l : Char} (solid : Text.isBlank l = false) (reading : Reading d after q b s ps) (flags : List Bool) :
    SameStart s (weld d (some l) false true (settle flags ps)) := by
  have direct : ∀ {v w : Text}, space (some l) false true v ++ (v ++ w) = v ++ w := by simp [space]
  cases reading with
  | done => exact Or.inl rfl
  | @more _ _ a r p ps token rest =>
    obtain ⟨p, flags', shape, settled⟩ := token.settle flags ps
    rw [settled]
    cases shape with
    | kept =>
      obtain ⟨c, x, rfl⟩ := List.exists_cons_of_ne_nil token.ne_nil
      rw [weld_plain, direct]
      exact Or.inl rfl
    | rewritten replaces =>
      obtain ⟨c, x, rfl, boundary⟩ := replaces.starts
      obtain ⟨e, y, rfl, mark⟩ := replaces.written
      rw [weld_text, direct]
      exact Or.inr ⟨⟨c, rfl, boundary⟩, fun m first => Or.inr (Option.some.inj first ▸ mark)⟩
    | tag spelled =>
      obtain ⟨x, rfl⟩ := spelled.closes
      obtain ⟨y, written⟩ := Tag.render_eq_cons spelled.wellFormed d
      rw [weld_tag, written]
      exact Or.inl rfl
    | @removed _ x hidden shape =>
      subst shape
      rw [weld_removed hidden]
      refine Or.inr ⟨⟨'<', rfl, by decide⟩, fun c first => ?_⟩
      rcases head?_weld_gap solid rest flags' c first with blank | rfl
      · exact Or.inl blank
      · exact Or.inr (by decide)

theorem runAfter_pos {k : Nat} {a : Text} (nonempty : a ≠ []) (pending : 0 < runAfter k a) : a.getLast? = some '`' := by
  have shape := List.dropLast_concat_getLast nonempty
  have last := List.getLast?_eq_some_getLast nonempty
  cases tick : isBacktick (a.getLast nonempty) with
  | true => rw [last, show a.getLast nonempty = '`' by simpa [isBacktick] using tick]
  | false =>
    have plain : EndsUnticked a := by
      intro c same
      obtain rfl : a.getLast nonempty = c := by simpa [last] using same
      exact tick
    simp [runAfter_eq_zero plain nonempty] at pending

theorem afterRun?_behind {k : Nat} (a s : Text) (absent : afterRun? n k (a ++ s) = none) :
    afterRun? n (runAfter k a) s = none := (afterRun?_append absent s).symm.trans absent

/-- Writing a line opens no run of backticks of a length that the line does not hold. A run of `k` backticks that
is pending before the line touches it. -/
theorem free_weld (positive : 0 < n) (reading : Reading d after q b s ps) {flags : List Bool} {k : Nat}
    (touches : 0 < k → gap = false ∧ afterText = true ∧ last = some '`') (absent : afterRun? n k s = none) :
    afterRun? n k (weld d last gap afterText (settle flags ps)) = none := by
  induction reading generalizing flags k last gap afterText with
  | done => simpa [settle, weld] using absent
  | @more q b a r p ps token rest ih =>
    obtain ⟨p, flags', shape, settled⟩ := token.settle flags ps
    -- a text in place of another one, with nothing pending on either side of it
    have replaced : ∀ {v w : Text}, Replaces a v → afterRun? n 0 w = none → afterRun? n k (v ++ w) = none := by
      intro v w replaces later
      obtain ⟨pending, whole⟩ := (afterRun?_eq_none_iff positive (replaces.unticked r)).mp absent
      have source := ((free_append_iff positive replaces.endsUnticked).mp whole).1
      have written := (free_append_iff positive replaces.last).mpr ⟨replaces.free n positive source, later⟩
      exact (afterRun?_eq_none_iff positive (replaces.written_unticked w)).mpr ⟨pending, written⟩
    have behind : ∀ {v : Text}, Replaces a v → afterRun? n 0 r = none := by
      intro v replaces
      obtain ⟨-, whole⟩ := (afterRun?_eq_none_iff positive (replaces.unticked r)).mp absent
      exact ((free_append_iff positive replaces.endsUnticked).mp whole).2
    have spaced : ∀ {v w : Text}, afterRun? n k (v ++ w) = none → afterRun? n k (space last gap afterText v ++ (v ++ w)) = none := by
      intro v w here
      rcases space_cases last gap afterText v with empty | ⟨rfl, blank⟩
      · simpa [empty] using here
      · have idle : k = 0 := Nat.eq_zero_of_not_pos fun pending => Bool.noConfusion (touches pending).1
        subst idle
        rw [blank]
        exact (free_cons_iff positive (by decide)).mpr here
    rw [settled]
    cases shape with
    | kept =>
      rw [weld_plain]
      apply spaced
      have front := afterRun?_append absent (weld d (a.getLast?.or last) false true (settle flags' ps))
      rw [front]
      refine ih (fun pending => ⟨rfl, rfl, ?_⟩) (afterRun?_behind a r absent)
      rw [runAfter_pos token.ne_nil pending]
      rfl
    | rewritten replaces =>
      rw [weld_text]
      exact spaced (replaced replaces (ih (by simp) (behind replaces)))
    | tag spelled =>
      have replaces := replaces_render spelled d
      rw [weld_tag]
      exact replaced replaces (ih (by simp) (behind replaces))
    | @removed _ x hidden shape =>
      subst shape
      rw [weld_removed hidden]
      have start : Unticked ('<' :: (x ++ ['>']) ++ r) := unticked_cons (by decide)
      have ends : EndsUnticked ('<' :: (x ++ ['>'])) := by
        intro c same
        obtain rfl : '>' = c := by simpa [getLast?_closed] using same
        decide
      obtain ⟨pending, whole⟩ := (afterRun?_eq_none_iff positive start).mp absent
      have later : Free n (weld d last true afterText (settle flags' ps)) :=
        ih (by simp) ((free_append_iff positive ends).mp whole).2
      by_cases idle : k = 0
      · subst idle
        exact later
      · obtain ⟨-, rfl, rfl⟩ := touches (Nat.pos_of_ne_zero idle)
        have unticked : Unticked (weld d (some '`') true true (settle flags' ps)) := by
          intro c first
          rcases head?_weld_gap (by decide) rest flags' c first with blank | rfl
          · exact not_isBacktick (by decide) blank
          · decide
        exact (afterRun?_eq_none_iff positive unticked).mpr ⟨pending, later⟩

end NotebookPages.Markup
