import NotebookPages.Proofs.Markup.LineStarts

/-! Text with nothing but brackets that reach ahead: what is written for it and for a line that begins with it. Each of its pieces is
text, written as it stands, escaped or as the note for an image. -/

namespace NotebookPages.Markup

open Piece

/-- The text has no code, no escapes, no markup and no comments. -/
def Simple (s : Text) : Prop := ∀ c ∈ s, c ∉ ['`', '\\', '<', '\x7b']

instance (s : Text) : Decidable (Simple s) :=
  decidable_of_iff (s.all (fun c => decide (c ∉ ['`', '\\', '<', '\x7b'])) = true) (by simp [Simple])

/-- What follows a text lets it be read as by itself: no letter that keeps a `>` before it, and no bracket that makes an image of a `!`. -/
def Detached (after : Text) : Prop := ∀ c, after.head? = some c → Text.isLetter c = false ∧ c ≠ '['

variable {d : Dialect} {q : Bool} {b last : Option Char} {c e : Char} {a r s t x y v w after bang front : Text} {p : Piece}
  {ps qs : List Piece} {flags : List Bool} {afterText : Bool} {problem : Option Problem} {n : Nat}

theorem Simple.start (simple : Simple (a ++ r)) : Simple a := fun c inside => simple c (List.mem_append_left r inside)

theorem Simple.behind (simple : Simple (a ++ r)) : Simple r := fun c inside => simple c (List.mem_append_right a inside)

theorem Simple.append (first : Simple a) (second : Simple r) : Simple (a ++ r) := fun c inside =>
  (List.mem_append.mp inside).elim (first c) (second c)

theorem Simple.not_mem (simple : Simple s) (mark : c ∈ ['`', '\\', '<', '\x7b']) : c ∉ s := fun inside => simple c inside mark

theorem Simple.first (simple : Simple (c :: s)) : c ∉ ['`', '\\', '<', '\x7b'] := simple c List.mem_cons_self

theorem afterDataLink?_of_head (other : c ≠ '[') (r : Text) : afterDataLink? (c :: r) = none := by
  cases found : afterDataLink? (c :: r) with
  | none => rfl
  | some after =>
    obtain ⟨x, shape⟩ := afterDataLink?_sound found
    exact absurd (List.cons.inj shape).1 other

/-- A character that begins no link, and what is written for it. It is read again before every text that begins alike. -/
structure Lone (d : Dialect) (q : Bool) (b : Option Char) (c : Char) (r v : Text) (problem : Option Problem) : Prop where
  noLink : afterDataLink? (c :: r) = none
  written : v = [c] ∨ v = ['\\', '\x7d'] ∨ v = ['&', 'g', 't', ';']
  again : ∀ t : Text, t.head?.any Text.isLetter = r.head?.any Text.isLetter → afterDataLink? (c :: t) = none →
    (afterDataLink? r = none → afterDataLink? t = none) → Token d q b [c] t (.text [c] v problem)

/-- What begins with a character of such a text is that character or a link. -/
theorem Token.of_simple (token : Token d q b a r p) (simple : ∀ c, a.head? = some c → c ∉ ['`', '\\', '<', '\x7b']) :
    (∃ c v problem, a = [c] ∧ p = .text [c] v problem ∧ Lone d q b c r v problem) ∨
      ∃ bang x, (bang = [] ∨ bang = ['!']) ∧ a = bang ++ '[' :: x ∧ p = .text a imageOmitted (some .dataUrl) ∧
        afterDataLink? ('[' :: (x ++ r)) = some r := by
  cases token with
  | @plain c _ ordinary =>
    have other : c ≠ '[' := by
      rintro rfl
      cases d <;> exact absurd ordinary (by decide)
    exact Or.inl ⟨c, _, _, rfl, rfl, afterDataLink?_of_head other r, Or.inl rfl, fun _ _ _ _ => .plain ordinary⟩
  | @brace c _ mdx bare =>
    rcases bare with ⟨rfl, -⟩ | rfl
    · exact absurd (by decide) (simple '\x7b' rfl)
    · exact Or.inl ⟨_, _, _, rfl, rfl, afterDataLink?_of_head (by decide) r, Or.inr (Or.inl rfl), fun _ _ _ _ => .brace mdx (Or.inr rfl)⟩
  | bang noLink =>
    exact Or.inl ⟨_, _, _, rfl, rfl, afterDataLink?_of_head (by decide) r, Or.inl rfl, fun _ _ _ keep => .bang (keep noLink)⟩
  | bracket noLink => exact Or.inl ⟨_, _, _, rfl, rfl, noLink, Or.inl rfl, fun _ _ noLink _ => .bracket noLink⟩
  | link mark found =>
    obtain ⟨x, rfl⟩ := eq_of_afterDataLink? found
    exact Or.inr ⟨_, x ++ [')'], mark, rfl, rfl, found⟩
  | quote mdx kept =>
    refine Or.inl ⟨_, _, _, rfl, rfl, afterDataLink?_of_head (by decide) r, Or.inl rfl, fun t same _ _ => .quote mdx ?_⟩
    rwa [keepsGreater, same]
  | greater mdx bare =>
    refine Or.inl ⟨_, _, _, rfl, rfl, afterDataLink?_of_head (by decide) r, Or.inr (Or.inr rfl), fun t same _ _ => .greater mdx ?_⟩
    rwa [keepsGreater, same]
  | backslash | escape => exact absurd (by decide) (simple '\\' rfl)
  | code span =>
    obtain ⟨x, rfl⟩ := span.starts
    exact absurd (by decide) (simple '`' rfl)
  | @ticks n _ positive =>
    obtain ⟨n, rfl⟩ := Nat.exists_eq_succ_of_ne_zero (Nat.ne_of_gt positive)
    exact absurd (by decide) (simple '`' rfl)
  | comment _ whole =>
    obtain ⟨x, rfl⟩ := whole.startsWith
    exact absurd (by decide) (simple '\x7b' rfl)
  | less | angle | htmlComment | keptComment | declaration | autolink | keptAutolink => exact absurd (by decide) (simple '<' rfl)
  | tag spelled | dataImage spelled =>
    obtain ⟨x, rfl⟩ := spelled.closes
    exact absurd (by decide) (simple '<' rfl)

/-- A piece of such a text is text: a character as it stands or escaped, or the note for an image. -/
theorem Token.simple_text (token : Token d q b a r p) (simple : Simple a) : ∃ v problem, p = .text a v problem ∧
    ((∃ c, a = [c] ∧ v = [c]) ∨ v = ['\\', '\x7d'] ∨ v = ['&', 'g', 't', ';'] ∨ v = imageOmitted) := by
  rcases token.of_simple fun c first => simple c (List.mem_of_head? first) with ⟨c, v, problem, rfl, rfl, lone⟩ | ⟨-, -, -, -, rfl, -⟩
  · refine ⟨v, problem, rfl, ?_⟩
    rcases lone.written with rfl | rfl | rfl
    · exact Or.inl ⟨c, rfl, rfl⟩
    · exact Or.inr (Or.inl rfl)
    · exact Or.inr (Or.inr (Or.inl rfl))
  · exact ⟨_, _, rfl, Or.inr (Or.inr (Or.inr rfl))⟩

theorem noLink_of_append (noLink : afterDataLink? (s ++ after) = none) : afterDataLink? s = none := by
  cases found : afterDataLink? s with
  | none => rfl
  | some rest =>
    rw [afterDataLink?_append found after] at noLink
    cases noLink

theorem detached_cons (stop : Text.isLetter c = false ∧ c ≠ '[') (s : Text) : Detached (c :: s) := by
  intro e head
  obtain rfl : c = e := Option.some.inj head
  exact stop

theorem Detached.letter (detached : Detached after) (t : Text) : t.head?.any Text.isLetter = (t ++ after).head?.any Text.isLetter := by
  cases t with
  | cons c t => rfl
  | nil =>
    cases after with
    | nil => rfl
    | cons c after => exact (detached c rfl).1.symm

/-- A piece of such a text is read without what follows the text. -/
theorem Token.alone (token : Token d q b a (t ++ after) p) (simple : Simple a) (detached : Detached after) : Token d q b a t p := by
  have first : ∀ c, a.head? = some c → c ∉ ['`', '\\', '<', '\x7b'] := fun c first => simple c (List.mem_of_head? first)
  rcases token.of_simple first with ⟨c, v, problem, rfl, rfl, lone⟩ | ⟨bang, x, mark, rfl, rfl, found⟩
  · have noLink : afterDataLink? (c :: t ++ after) = none := lone.noLink
    exact lone.again t (detached.letter t) (noLink_of_append noLink) noLink_of_append
  · exact .link mark (afterDataLink?_replace (a := '[' :: x) found t)

theorem Reading.alone (reading : Reading d (t ++ after) q b s ps) (simple : Simple s) (detached : Detached after) :
    Reading d t q b s ps := by
  induction reading with
  | done => exact .done
  | more token rest ih =>
    rw [← List.append_assoc] at token
    exact .more (token.alone simple.start detached) (ih simple.behind)

/-- What is written for the pieces of such a text: every piece is text. -/
theorem weld_simple (reading : Reading d after q b s ps) (simple : Simple s) (flags : List Bool) (qs : List Piece) (last : Option Char)
    (afterText : Bool) : ∃ last' afterText', weld d last false afterText (settle flags (ps ++ qs)) =
      ps.flatMap (chunk d) ++ weld d last' false afterText' (settle flags qs) := by
  induction reading generalizing last afterText with
  | done => exact ⟨last, afterText, rfl⟩
  | @more q b a r p ps token rest ih =>
    obtain ⟨v, problem, rfl, -⟩ := token.simple_text simple.start
    obtain ⟨last', afterText', later⟩ := ih simple.behind (v.getLast?.or last) true
    refine ⟨last', afterText', ?_⟩
    rw [List.cons_append, settle_text, weld_text, space_of_tight, later, List.nil_append, List.flatMap_cons, List.append_assoc]
    rfl

theorem weld_whole (reading : Reading d after q b s ps) (simple : Simple s) (flags : List Bool) (last : Option Char) (afterText : Bool) :
    weld d last false afterText (settle flags ps) = ps.flatMap (chunk d) := by
  obtain ⟨last', afterText', whole⟩ := weld_simple reading simple flags [] last afterText
  rwa [List.append_nil, show settle flags [] = [] from rfl, weld, List.append_nil] at whole

theorem totalWidth_simple (reading : Reading d after q b s ps) (simple : Simple s) (qs : List Piece) :
    totalWidth d (ps ++ qs) = (ps.flatMap (chunk d)).length + totalWidth d qs := by
  induction reading with
  | done => exact (Nat.zero_add _).symm
  | @more q b a r p ps token rest ih =>
    obtain ⟨v, problem, rfl, -⟩ := token.simple_text simple.start
    rw [List.cons_append, totalWidth, ih simple.behind, List.flatMap_cons, List.length_append, Nat.add_assoc]
    rfl

theorem totalWidth_whole (reading : Reading d after q b s ps) (simple : Simple s) : totalWidth d ps = (ps.flatMap (chunk d)).length := by
  have width := totalWidth_simple reading simple []
  rwa [List.append_nil] at width

theorem chunks_map (d : Dialect) (x : Text) : (x.map fun c => Piece.plain [c]).flatMap (chunk d) = x := by
  induction x with
  | nil => rfl
  | cons c x ih =>
    rw [List.map_cons, List.flatMap_cons, ih]
    rfl

/-- What is written for such a text has its characters, and those of escapes and notes. -/
theorem mem_chunks (reading : Reading d after q b s ps) (simple : Simple s) (inside : c ∈ ps.flatMap (chunk d)) :
    c ∈ s ∨ c ∈ ['\\', '\x7d', '&', 'g', 't', ';'] ++ imageOmitted := by
  have marks : (∀ c ∈ ['\\', '\x7d'], c ∈ ['\\', '\x7d', '&', 'g', 't', ';'] ++ imageOmitted) ∧
      ∀ c ∈ ['&', 'g', 't', ';'], c ∈ ['\\', '\x7d', '&', 'g', 't', ';'] ++ imageOmitted :=
    ⟨Text.forall_mem_of_all (by decide), Text.forall_mem_of_all (by decide)⟩
  induction reading with
  | done => cases inside
  | @more q b a r p ps token rest ih =>
    obtain ⟨v, problem, rfl, written⟩ := token.simple_text simple.start
    rw [List.flatMap_cons] at inside
    rcases List.mem_append.mp inside with here | later
    · rcases written with ⟨e, rfl, rfl⟩ | rfl | rfl | rfl
      · exact Or.inl (List.mem_append_left r here)
      · exact Or.inr (marks.1 c here)
      · exact Or.inr (marks.2 c here)
      · exact Or.inr (List.mem_append_right _ here)
    · exact (ih simple.behind later).imp_left (List.mem_append_right a)

theorem not_mem_chunks (reading : Reading d after q b s ps) (simple : Simple s) (mark : c ∈ ['`', '<', '\x7b']) :
    c ∉ ps.flatMap (chunk d) := by
  have absent : (∀ c ∈ ['`', '<', '\x7b'], c ∈ ['`', '\\', '<', '\x7b']) ∧
      ∀ c ∈ ['`', '<', '\x7b'], c ∉ ['\\', '\x7d', '&', 'g', 't', ';'] ++ imageOmitted :=
    ⟨Text.forall_mem_of_all (by decide), Text.forall_mem_of_all (by decide)⟩
  intro inside
  rcases mem_chunks reading simple inside with here | here
  · exact simple c here (absent.1 c mark)
  · exact absent.2 c mark here

/-- What is written for such a text begins as it does. -/
theorem prefix_of_chunks (reading : Reading d after q b s ps) (simple : Simple s) (echoes : ∀ c ∈ x, Echoes d c)
    (other : isWrittenMark e = false) (starts : x ++ [e] <+: ps.flatMap (chunk d)) : x ++ [e] <+: s := by
  rw [← weld_whole reading simple [] none false] at starts
  rcases prefix_of_weld reading echoes other starts with here | ⟨angle, -⟩
  · exact here
  · exact absurd angle (simple.not_mem (by decide))

/-- Blanks are written as they are, and nothing else is written as blanks. -/
theorem chunks_of_blank (reading : Reading d after q b s ps) (simple : Simple s)
    (blank : Text.Blank s ∨ Text.Blank (ps.flatMap (chunk d))) : ps.flatMap (chunk d) = s := by
  induction reading with
  | done => rfl
  | @more q b a r p ps token rest ih =>
    rw [List.flatMap_cons] at blank ⊢
    obtain ⟨v, problem, rfl, written⟩ := token.simple_text simple.start
    have same : v = a := by
      rcases blank with source | shown
      · obtain ⟨c, a, rfl⟩ := List.exists_cons_of_ne_nil token.ne_nil
        obtain ⟨rfl, plain⟩ := token.eq_of_ordinary (isSpecial_of_isBlank (source c (by simp)))
        cases plain
        rfl
      · have solid : ∀ {m : Char} {w : Text}, Text.isBlank m = false → v ≠ m :: w := by
          rintro m w solid rfl
          rw [shown m (by simp [chunk])] at solid
          cases solid
        rcases written with ⟨c, rfl, rfl⟩ | written | written | written
        · rfl
        · exact absurd written (solid (by decide))
        · exact absurd written (solid (by decide))
        · exact absurd written (solid (by decide))
    have later : Text.Blank r ∨ Text.Blank (ps.flatMap (chunk d)) :=
      blank.imp (fun all c inside => all c (List.mem_append_right a inside)) fun all c inside => all c (List.mem_append_right _ inside)
    rw [ih simple.behind later, show chunk d (.text a v problem) = v from rfl, same]

theorem prefix_of_stop (starts : x <+: y ++ e :: v) (absent : e ∉ x) : x <+: y := by
  rcases List.prefix_or_prefix_of_prefix starts (List.prefix_append y (e :: v)) with within | ⟨z, rfl⟩
  · exact within
  · cases z with
    | nil => exact (List.append_nil y).symm ▸ List.prefix_rfl
    | cons c z =>
      have later := (List.prefix_append_right_inj y).mp starts
      obtain rfl := (List.cons_prefix_cons.mp later).1
      exact absurd (by simp) absent

theorem chunks_not_tildes {blanks : Text} (reading : Reading d after q b s ps) (simple : Simple s)
    (prose : Fence.open? (s ++ x) = none) (blank : Text.Blank blanks) : ¬ blanks ++ ['~', '~', '~'] <+: ps.flatMap (chunk d) := by
  intro starts
  have here : (blanks ++ ['~', '~']) ++ ['~'] <+: s :=
    prefix_of_chunks reading simple (echoes_tildes blank) (by decide) (by simpa using starts)
  rw [List.append_assoc] at here
  exact absurd prose (Fence.open?_tildes blank (here.trans (List.prefix_append s x)))

/-- Behind a text that opens no fence, only a run of backticks at the start of what is written opens one. -/
theorem opening_of_chunks {fence : Fence} {blanks info : Text} (reading : Reading d after q b s ps) (simple : Simple s)
    (prose : Fence.open? (s ++ x) = none) (solid : Text.isBlank e = false) (other : e ≠ '~')
    (opening : fence.Opening (ps.flatMap (chunk d) ++ e :: v) blanks info) :
    ps.flatMap (chunk d) = blanks ∧ e = '`' ∧ fence.marker = '`' := by
  obtain ⟨n, long⟩ := opening.exists_length
  have behind : e ∉ blanks := by
    intro inside
    rw [opening.blank e inside] at solid
    cases solid
  have tick : fence.marker = '`' := by
    refine opening.marker.resolve_right fun tilde => chunks_not_tildes reading simple prose opening.blank ?_
    refine prefix_of_stop (opening.tildes tilde) fun inside => ?_
    rcases List.mem_append.mp inside with inside | inside
    · exact behind inside
    · exact other (by simpa using inside)
  have shape := opening.shape
  rw [tick, long, List.replicate_succ] at shape
  obtain ⟨z, whole⟩ : blanks <+: ps.flatMap (chunk d) := prefix_of_stop ⟨_, shape.symm⟩ behind
  rw [← whole, List.append_assoc] at shape
  have first := List.append_cancel_left shape
  cases z with
  | nil => exact ⟨by rw [← whole, List.append_nil], (List.cons.inj first).1, tick⟩
  | cons c z =>
    refine absurd ?_ (not_mem_chunks reading simple (c := '`') (by decide))
    rw [← whole, (List.cons.inj first).1]
    simp

/-- Behind a text that opens no fence, what is written for it opens none before other text. -/
theorem open?_chunks (reading : Reading d after q b s ps) (simple : Simple s) (prose : Fence.open? (s ++ x) = none)
    (solid : Text.isBlank e = false) (other : e ∉ ['`', '~']) : Fence.open? (ps.flatMap (chunk d) ++ e :: v) = none := by
  cases found : Fence.open? (ps.flatMap (chunk d) ++ e :: v) with
  | none => rfl
  | some fence =>
    obtain ⟨blanks, info, opening⟩ := Fence.open?_sound found
    have tilde : e ≠ '~' := fun same => other (by simp [same])
    obtain ⟨-, rfl, -⟩ := opening_of_chunks reading simple prose solid tilde opening
    exact absurd (by simp) other

/-- Neither such a text nor what is written for it opens a fence where the line that begins with it opens none. -/
theorem open?_simple (reading : Reading d after q b s ps) (simple : Simple s) (prose : Fence.open? (s ++ x) = none) :
    Fence.open? s = none ∧ Fence.open? (ps.flatMap (chunk d)) = none := by
  have none : ∀ w : Text, '`' ∉ w → (∀ blanks, Text.Blank blanks → ¬ blanks ++ ['~', '~', '~'] <+: w) → Fence.open? w = none := by
    intro w noTick noTildes
    cases found : Fence.open? w with
    | none => rfl
    | some fence =>
      obtain ⟨blanks, info, opening⟩ := Fence.open?_sound found
      obtain ⟨n, long⟩ := opening.exists_length
      rcases opening.marker with tick | tilde
      · exact absurd (by rw [opening.shape, tick, long]; simp) noTick
      · exact absurd (opening.tildes tilde) (noTildes blanks opening.blank)
  refine ⟨none s (simple.not_mem (by decide)) fun blanks blank starts => ?_, ?_⟩
  · exact absurd prose (Fence.open?_tildes blank (starts.trans (List.prefix_append s x)))
  · exact none _ (not_mem_chunks reading simple (by decide)) fun blanks blank => chunks_not_tildes reading simple prose blank

variable {rules : Rules} {behind : Text}

/-- What a pass writes for such a text, if it stands at the start of a line of prose. -/
theorem sanitize_simple (reading : Reading rules.dialect [] true none s ps) (simple : Simple s) (oneLine : Text.IsLine s)
    (prose : Fence.open? (s ++ x) = none) : sanitize rules s =
      if (ps.flatMap (chunk rules.dialect)).length ≤ rules.maxLine then ps.flatMap (chunk rules.dialect)
      else rules.dialect.comment longLineNote := by
  obtain ⟨unopened, unopened'⟩ := open?_simple reading simple prose
  obtain ⟨flags, written⟩ := sanitize_line rules oneLine unopened
  rw [written, show scanLine rules.dialect s = ps from reading.scan_eq, weld_whole reading simple, totalWidth_whole reading simple,
    guardFence_of_none unopened']

/-- What a pass writes for a line that begins with such a text, before what is written for the pieces behind it. -/
theorem sanitize_behind (reading : Reading rules.dialect after true none s ps) (simple : Simple s) (oneLine : Text.IsLine (s ++ after))
    (prose : Fence.open? (s ++ after) = none) (back : Reading rules.dialect [] (true && s.all isLead) (s.getLast?.or none) after qs) :
    totalWidth rules.dialect (scanLine rules.dialect (s ++ after)) =
        (ps.flatMap (chunk rules.dialect)).length + totalWidth rules.dialect qs ∧
      ∃ flags last afterText, sanitize rules (s ++ after) =
        if totalWidth rules.dialect (scanLine rules.dialect (s ++ after)) ≤ rules.maxLine
        then Line.guardFence (ps.flatMap (chunk rules.dialect) ++ weld rules.dialect last false afterText (settle flags qs))
        else rules.dialect.comment longLineNote := by
  have whole : scanLine rules.dialect (s ++ after) = ps ++ qs := by
    refine Reading.scan_eq (Reading.append ?_ back)
    rwa [List.append_nil]
  obtain ⟨flags, written⟩ := sanitize_line rules oneLine prose
  obtain ⟨last, afterText, weld⟩ := weld_simple reading simple flags qs none false
  exact ⟨by rw [whole, totalWidth_simple reading simple], flags, last, afterText, by rw [written, whole, weld]⟩

/-- A line whose first link to a data URL begins behind such a text: the note stands for the link. -/
theorem sanitize_link (reading : Reading rules.dialect after true none s ps) (simple : Simple s) (mark : bang = [] ∨ bang = ['!'])
    (shape : after = bang ++ '[' :: w ++ behind) (found : afterDataLink? ('[' :: (w ++ behind)) = some behind)
    (oneLine : Text.IsLine (s ++ after)) (prose : Fence.open? (s ++ after) = none) :
    ∃ q b qs, Reading rules.dialect [] q b behind qs ∧
      totalWidth rules.dialect (scanLine rules.dialect (s ++ after)) =
        (ps.flatMap (chunk rules.dialect)).length + (imageOmitted.length + totalWidth rules.dialect qs) ∧
      ∃ flags last, sanitize rules (s ++ after) =
        if totalWidth rules.dialect (scanLine rules.dialect (s ++ after)) ≤ rules.maxLine
        then ps.flatMap (chunk rules.dialect) ++ (imageOmitted ++ weld rules.dialect last false true (settle flags qs))
        else rules.dialect.comment longLineNote := by
  have token : ∀ {q b}, Token rules.dialect q b (bang ++ '[' :: w) (behind ++ [])
      (.text (bang ++ '[' :: w) imageOmitted (some .dataUrl)) := by
    rw [List.append_nil]
    exact .link mark found
  obtain ⟨qs, rest⟩ : ∃ qs, Reading rules.dialect [] ((true && s.all isLead) && (bang ++ '[' :: w).all isLead)
      ((bang ++ '[' :: w).getLast?.or (s.getLast?.or none)) behind qs := ⟨_, reading_scan ..⟩
  have back := Reading.more token rest
  rw [← shape] at back
  obtain ⟨width, flags, last, afterText, written⟩ := sanitize_behind reading simple oneLine prose back
  refine ⟨_, _, qs, rest, width, flags, imageOmitted.getLast?.or last, ?_⟩
  have note : imageOmitted = '_' :: "(embedded image omitted)_" := rfl
  rw [written, settle_text, weld_text, space_of_tight, List.nil_append, note, List.cons_append,
    guardFence_of_none (open?_chunks reading simple prose (by decide) (by decide))]

end NotebookPages.Markup
