import NotebookPages.Proofs.Markup.SecondPass
import NotebookPages.Proofs.Markup.Trimmed

/-! What a reader sees of a line. Escaping a line for MDX changes how the line is spelled and not what it shows, as long
as the line holds no markup and no link, of which parts may be left out. -/

namespace NotebookPages.Markup

open Piece

/-- What the characters from `c` on show as one, and how many characters of `rest` belong to them. -/
def nextShown (c : Char) (rest : Text) : Text × Nat :=
  let s := c :: rest
  let verbatim (after : Text) : Text × Nat := (Text.upTo s after, rest.length - after.length)
  match c with
  | '\\' =>
    match rest.head?.filter Text.isPunctuation with
    | some mark => ([mark], 1)
    | none => ([c], 0)
  | '`' => verbatim (afterCode s)
  | '\x7b' =>
    match afterComment? s with
    | some after => verbatim after
    | none => ([c], 0)
  | '&' =>
    if Text.startsWith rest "lt;" then (['<'], 3)
    else if Text.startsWith rest "gt;" then (['>'], 3)
    else ([c], 0)
  | _ => ([c], 0)

/-- What the rest of a line shows, of which the first `skip` characters have been shown already. -/
def shownFrom (skip : Nat) : Text → Text
  | [] => []
  | c :: rest =>
    match skip with
    | n + 1 => shownFrom n rest
    | 0 =>
      let (seen, more) := nextShown c rest
      seen ++ shownFrom more rest

/-- What a reader sees of a line: escaped marks, code spans and comments as they stand, and the signs that entities name. -/
def shown (line : Text) : Text := shownFrom 0 line

variable {q : Bool} {b : Option Char} {c m : Char} {a r s v w x : Text} {p : Piece} {ps : List Piece} {problem : Option Problem}
  {flags : List Bool} {last : Option Char} {gap afterText : Bool} {n : Nat}

/-- A character that shows itself whatever follows. -/
def ShowsItself (c : Char) : Prop := c ∉ ['\\', '`', '\x7b', '&']

theorem nextShown_backslash (r : Text) : nextShown '\\' r =
    match r.head?.filter Text.isPunctuation with
    | some mark => ([mark], 1)
    | none => (['\\'], 0) := rfl

theorem nextShown_backtick (r : Text) : nextShown '`' r =
    (Text.upTo ('`' :: r) (afterCode ('`' :: r)), r.length - (afterCode ('`' :: r)).length) := rfl

theorem nextShown_brace (r : Text) : nextShown '\x7b' r =
    match afterComment? ('\x7b' :: r) with
    | some after => (Text.upTo ('\x7b' :: r) after, r.length - after.length)
    | none => (['\x7b'], 0) := rfl

theorem nextShown_ampersand (r : Text) : nextShown '&' r =
    if Text.startsWith r "lt;" then (['<'], 3) else if Text.startsWith r "gt;" then (['>'], 3) else (['&'], 0) := rfl

theorem shownFrom_append (x r : Text) : shownFrom x.length (x ++ r) = shown r := by
  induction x with
  | nil => rfl
  | cons c x ih => exact ih

theorem shown_of_next (next : nextShown c (x ++ r) = (v, x.length)) : shown (c :: (x ++ r)) = v ++ shown r := by
  rw [shown, shownFrom, next]
  exact congrArg (v ++ ·) (shownFrom_append x r)

theorem shown_one (next : nextShown c r = ([c], 0)) : shown (c :: r) = c :: shown r := shown_of_next (x := []) next

theorem shown_self (self : ShowsItself c) : shown (c :: r) = c :: shown r := by
  apply shown_one
  simp only [ShowsItself, List.mem_cons, List.not_mem_nil, or_false, not_or] at self
  unfold nextShown
  split <;> simp_all

theorem shown_plain (self : ∀ c ∈ x, ShowsItself c) : shown (x ++ r) = x ++ shown r := by
  induction x with
  | nil => rfl
  | cons c x ih =>
    rw [List.cons_append, shown_self (self c List.mem_cons_self), ih fun e inside => self e (List.mem_cons_of_mem c inside)]
    rfl

theorem shown_backslash (alone : r.head?.any Text.isPunctuation = false) : shown ('\\' :: r) = '\\' :: shown r := by
  apply shown_one
  cases r with
  | nil => rfl
  | cons c r =>
    have plain : Text.isPunctuation c = false := alone
    simp [nextShown_backslash, Option.filter, plain]

theorem shown_escape (mark : Text.isPunctuation m = true) : shown ('\\' :: m :: r) = m :: shown r := by
  have next : nextShown '\\' ([m] ++ r) = ([m], 1) := by simp [nextShown_backslash, Option.filter, mark]
  exact shown_of_next next

theorem shown_code (span : IsCode a) (stop : Unticked r) : shown (a ++ r) = a ++ shown r := by
  obtain ⟨x, rfl⟩ := span.starts
  have after := span.reads r stop
  rw [List.cons_append] at after
  have next : nextShown '`' (x ++ r) = ('`' :: x, x.length) := by simp [nextShown_backtick, after]
  exact shown_of_next next

theorem shown_ticks (positive : 0 < n) (stop : Unticked r) (free : Free n r) :
    shown (List.replicate n '`' ++ r) = List.replicate n '`' ++ shown r := by
  obtain ⟨k, rfl⟩ := Nat.exists_eq_succ_of_ne_zero (Nat.ne_of_gt positive)
  have after : afterCode (List.replicate (k + 1) '`' ++ r) = r := by
    rw [afterCode_ticks _ stop, show afterRun? (k + 1) 0 r = none from free]
    rfl
  rw [List.replicate_succ, List.cons_append] at after
  have next : nextShown '`' (List.replicate k '`' ++ r) = ('`' :: List.replicate k '`', (List.replicate k '`').length) := by
    simp [nextShown_backtick, after]
  exact shown_of_next next

theorem shown_comment (comment : IsComment a) : shown (a ++ r) = a ++ shown r := by
  obtain ⟨⟨x, rfl⟩, again⟩ := comment
  have after := again r
  rw [List.cons_append] at after
  have next : nextShown '\x7b' (x ++ ['\x7d'] ++ r) = ('\x7b' :: (x ++ ['\x7d']), (x ++ ['\x7d']).length) := by
    simp only [nextShown_brace, after, Text.upTo_cons_append, List.length_append, Nat.add_sub_cancel]
  exact shown_of_next next

theorem shown_brace (bare : afterComment? ('\x7b' :: r) = none) : shown ('\x7b' :: r) = '\x7b' :: shown r :=
  shown_one (by simp [nextShown_brace, bare])

theorem shown_lt (r : Text) : shown ('&' :: 'l' :: 't' :: ';' :: r) = '<' :: shown r := by
  have next : nextShown '&' (['l', 't', ';'] ++ r) = (['<'], 3) := by simp [nextShown_ampersand, Text.startsWith]
  exact shown_of_next next

theorem shown_gt (r : Text) : shown ('&' :: 'g' :: 't' :: ';' :: r) = '>' :: shown r := by
  have next : nextShown '&' (['g', 't', ';'] ++ r) = (['>'], 3) := by simp [nextShown_ampersand, Text.startsWith]
  exact shown_of_next next

theorem shown_ampersand (noLess : ¬ ['l', 't', ';'] <+: r) (noGreater : ¬ ['g', 't', ';'] <+: r) :
    shown ('&' :: r) = '&' :: shown r := by
  apply shown_one
  simp [nextShown_ampersand, Text.startsWith, List.isPrefixOf_iff_prefix, noLess, noGreater]

/-- An entity is read alike where it is written alike and what is behind it shows the same. -/
theorem shown_ampersand_congr (less : ['l', 't', ';'] <+: w ↔ ['l', 't', ';'] <+: r)
    (greater : ['g', 't', ';'] <+: w ↔ ['g', 't', ';'] <+: r) (same : shown w = shown r) : shown ('&' :: w) = shown ('&' :: r) := by
  have self : ∀ c ∈ ['l', 'g', 't', ';'], ShowsItself c := by
    intro c inside
    simp only [List.mem_cons, List.not_mem_nil, or_false] at inside
    rcases inside with rfl | rfl | rfl | rfl <;> simp [ShowsItself]
  -- the characters of a name show themselves, so they cancel on both sides
  have behind : ∀ {x y z : Text}, x ⊆ ['l', 'g', 't', ';'] → x ++ y = w → x ++ z = r → shown y = shown z := by
    rintro x y z letters rfl rfl
    rw [shown_plain fun c inside => self c (letters inside), shown_plain fun c inside => self c (letters inside)] at same
    exact List.append_cancel_left same
  by_cases named : ['l', 't', ';'] <+: r
  · obtain ⟨z, rest⟩ := named
    obtain ⟨y, written⟩ := less.mpr ⟨z, rest⟩
    have later := behind (by simp) written rest
    rw [← written, ← rest]
    exact (shown_lt y).trans ((congrArg _ later).trans (shown_lt z).symm)
  · by_cases named' : ['g', 't', ';'] <+: r
    · obtain ⟨z, rest⟩ := named'
      obtain ⟨y, written⟩ := greater.mpr ⟨z, rest⟩
      have later := behind (by simp) written rest
      rw [← written, ← rest]
      exact (shown_gt y).trans ((congrArg _ later).trans (shown_gt z).symm)
    · rw [shown_ampersand named named', shown_ampersand (mt less.mp named) (mt greater.mp named'), same]

theorem infix_of_afterDataLink? (found : afterDataLink? s = some r) : [']', '('] <:+: s := by
  unfold afterDataLink? at found
  split at found
  next body =>
    split at found
    next => cases found
    next label url opened =>
      simp only [String.reduceToList] at opened
      exact ⟨'[' :: label, url, by rw [Text.eq_of_cut opened]; simp⟩
  next => cases found

theorem showsItself_of_ordinary (ordinary : isSpecial .mdx c = false) (other : c ≠ '&') : ShowsItself c := by
  simp only [isSpecial, Bool.or_eq_false_iff, beq_eq_false_iff_ne, BEq.rfl, Bool.true_and] at ordinary
  simp [ShowsItself, ordinary, other]

/-- The text holds no markup and no link. -/
structure Bare (s : Text) : Prop where
  noAngle : '<' ∉ s
  noLink : ¬ [']', '('] <:+: s

theorem Bare.behind (bare : Bare (a ++ r)) : Bare r :=
  ⟨fun inside => bare.noAngle (List.mem_append_right a inside), fun link => bare.noLink (link.trans (List.suffix_append a r).isInfix)⟩

/-- `w` is written for what stands behind a text that `last` ends. -/
structure Behind (last : Option Char) (r w : Text) : Prop where
  start : ∀ c, last = some c → Text.isBlank c = false → SameStart r w
  free : ∀ n, 0 < n → Free n r → Free n w
  names : ∀ x, (∀ c ∈ x, isSpecial .mdx c = false ∧ c ≠ '&') → (x <+: w ↔ x <+: r)
  same : shown w = shown r

/-- Escaping writes `v` for `a`, behind which `r` stands, and whatever is written for `r`, the two show the same. -/
structure Escaped (a r v : Text) : Prop where
  first : v = a ∨ v.head? = some '\\' ∨ v.head? = some '&'
  shows : ∀ w, Behind v.getLast? r w → shown (v ++ w) = shown (a ++ r)

theorem escaped_self (self : ShowsItself c) : Escaped [c] r [c] := by
  refine ⟨Or.inl rfl, fun w behind => ?_⟩
  rw [List.singleton_append, List.singleton_append, shown_self self, shown_self self, behind.same]

theorem escaped_ordinary (ordinary : isSpecial .mdx c = false) : Escaped [c] r [c] := by
  by_cases entity : c = '&'
  · subst entity
    refine ⟨Or.inl rfl, fun w behind => ?_⟩
    have less := behind.names ['l', 't', ';'] (by simp [isSpecial])
    have greater := behind.names ['g', 't', ';'] (by simp [isSpecial])
    exact shown_ampersand_congr less greater behind.same
  · exact escaped_self (showsItself_of_ordinary ordinary entity)

/-- A mark that shows itself shows itself behind a backslash too. -/
theorem escaped_mark (mark : Text.isPunctuation c = true) (bare : shown (c :: r) = c :: shown r) : Escaped [c] r ['\\', c] := by
  refine ⟨Or.inr (Or.inl rfl), fun w behind => ?_⟩
  rw [List.singleton_append, bare, ← behind.same]
  exact shown_escape mark

/-- A piece of a line without markup and links is text that is kept or escaped. -/
theorem Token.escaped (token : Token .mdx q b a r p) (bare : Bare (a ++ r)) : ∃ v problem, p = .text a v problem ∧ Escaped a r v := by
  have noAngle : '<' ∉ a := fun inside => bare.noAngle (List.mem_append_left r inside)
  cases token with
  | plain ordinary => exact ⟨_, _, rfl, escaped_ordinary ordinary⟩
  | backslash alone =>
    refine ⟨_, _, rfl, Or.inl rfl, fun w behind => ?_⟩
    have alone' := (behind.start '\\' rfl (by decide)).plain alone
    rw [List.singleton_append, List.singleton_append, shown_backslash alone, shown_backslash alone', behind.same]
  | @escape m _ mark =>
    refine ⟨_, _, rfl, Or.inl rfl, fun w behind => ?_⟩
    exact (shown_escape mark).trans ((congrArg (m :: ·) behind.same).trans (shown_escape mark).symm)
  | code span stop =>
    refine ⟨_, _, rfl, Or.inl rfl, fun w behind => ?_⟩
    have stop' := (behind.start '`' span.stops (by decide)).unticked stop
    rw [shown_code span stop, shown_code span stop', behind.same]
  | @ticks n _ positive stop free =>
    refine ⟨_, _, rfl, Or.inl rfl, fun w behind => ?_⟩
    have last : (List.replicate n '`').getLast? = some '`' := by
      rw [List.getLast?_replicate, if_neg (Nat.ne_of_gt positive)]
    have stop' := (behind.start '`' last (by decide)).unticked stop
    rw [shown_ticks positive stop free, shown_ticks positive stop' (behind.free n positive free), behind.same]
  | comment _ comment =>
    refine ⟨_, _, rfl, Or.inl rfl, fun w behind => ?_⟩
    rw [shown_comment comment, shown_comment comment, behind.same]
  | brace _ bare =>
    rcases bare with ⟨rfl, none⟩ | rfl
    · exact ⟨_, _, rfl, escaped_mark (by decide) (shown_brace none)⟩
    · exact ⟨_, _, rfl, escaped_mark (by decide) (shown_self (by simp [ShowsItself]))⟩
  | bang | bracket | quote => exact ⟨_, _, rfl, escaped_self (by simp [ShowsItself])⟩
  | greater =>
    refine ⟨_, _, rfl, Or.inr (Or.inr rfl), fun w behind => ?_⟩
    rw [List.singleton_append, shown_self (by simp [ShowsItself]), ← behind.same]
    exact shown_gt w
  | link mark found =>
    refine absurd ?_ bare.noLink
    rw [List.append_assoc]
    exact (infix_of_afterDataLink? found).trans (List.suffix_append _ _).isInfix
  | angle markdown | keptComment markdown | keptAutolink markdown => cases markdown
  | less | htmlComment | declaration | autolink => exact absurd List.mem_cons_self noAngle
  | tag spelled | dataImage spelled =>
    obtain ⟨x, rfl⟩ := spelled.closes
    exact absurd List.mem_cons_self noAngle

/-- What a text without marks begins with, it also begins with where it is written. -/
theorem prefix_weld_iff (reading : Reading .mdx [] q b s ps) (bare : Bare s)
    (plain : ∀ c ∈ x, isSpecial .mdx c = false ∧ c ≠ '&') :
    x <+: weld .mdx last false afterText (settle flags ps) ↔ x <+: s := by
  induction reading generalizing x last afterText flags with
  | done => exact Iff.rfl
  | @more _ _ a r _ ps token rest ih =>
    rw [List.append_nil] at token
    obtain ⟨v, problem, rfl, written⟩ := token.escaped bare
    rw [settle_text, weld_text, space_of_tight, List.nil_append]
    cases x with
    | nil => simp
    | cons c x =>
      obtain ⟨e, y, rfl⟩ := List.exists_cons_of_ne_nil token.ne_nil
      -- a token that begins with an ordinary character is that character, and escaping writes no such character first
      by_cases same : e = c
      · subst same
        obtain ⟨rfl, text⟩ := token.eq_of_ordinary (plain e List.mem_cons_self).1
        obtain rfl : v = [e] := (Piece.text.inj text).2.1
        rw [List.singleton_append, List.singleton_append, List.cons_prefix_cons, List.cons_prefix_cons]
        exact and_congr_right fun _ => ih bare.behind fun c inside => plain c (List.mem_cons_of_mem e inside)
      · have first : ∃ m v', v = m :: v' ∧ m ≠ c := by
          rcases written.first with rfl | slash | entity
          · exact ⟨e, y, rfl, same⟩
          · obtain ⟨v', rfl⟩ := List.head?_eq_some_iff.mp slash
            refine ⟨'\\', v', rfl, ?_⟩
            rintro rfl
            exact absurd (plain _ List.mem_cons_self).1 (by decide)
          · obtain ⟨v', rfl⟩ := List.head?_eq_some_iff.mp entity
            exact ⟨'&', v', rfl, Ne.symm (plain c List.mem_cons_self).2⟩
        obtain ⟨m, v', rfl, other⟩ := first
        rw [List.cons_append, List.cons_append, List.cons_prefix_cons, List.cons_prefix_cons]
        simp [Ne.symm same, Ne.symm other]

/-- A line without markup and links is written so that it shows what its source shows, and it is as long as its pieces. -/
theorem shown_weld (reading : Reading .mdx [] q b s ps) (bare : Bare s) :
    shown (weld .mdx last false afterText (settle flags ps)) = shown s ∧
      (weld .mdx last false afterText (settle flags ps)).length = totalWidth .mdx ps := by
  induction reading generalizing last afterText flags with
  | done => exact ⟨rfl, rfl⟩
  | @more _ _ a r _ ps token rest ih =>
    rw [List.append_nil] at token
    obtain ⟨v, problem, rfl, written⟩ := token.escaped bare
    rw [settle_text, weld_text, space_of_tight, List.nil_append, List.length_append, totalWidth, width]
    obtain ⟨same, length⟩ := @ih flags (v.getLast?.or last) true bare.behind
    refine ⟨written.shows _ ⟨fun c final solid => ?_, fun n positive free => ?_, fun x plain => ?_, same⟩, by rw [length]⟩
    · rw [final]
      exact sameStart_weld solid rest flags
    · exact free_weld positive rest (by simp) free
    · exact prefix_weld_iff rest bare.behind plain

/-- Markers of a fence show themselves, and behind a backslash they show the same. -/
theorem shown_markers {fence : Fence} {blanks info : Text} (opening : fence.Opening w blanks info) :
    shown ('\\' :: (List.replicate fence.length fence.marker ++ info)) = shown (List.replicate fence.length fence.marker ++ info) := by
  obtain ⟨n, long⟩ := opening.exists_length
  rw [long, List.replicate_succ, List.cons_append]
  rcases opening.marker with tick | tilde
  · have plain : ∀ c ∈ info, isBacktick c = false := by
      intro c inside
      have other : c ≠ '`' := fun same => opening.plain tick (same ▸ inside)
      simpa [isBacktick] using other
    have stop : Unticked info := fun c first => plain c (List.mem_of_mem_head? first)
    have positive : 0 < n := by have := opening.long; omega
    have run := shown_ticks (n := n + 1) (Nat.succ_pos n) stop (free_of_plain (Nat.succ_pos n) plain)
    rw [List.replicate_succ, List.cons_append] at run
    rw [tick, shown_escape (by decide), shown_ticks positive stop (free_of_plain positive plain), run]
    rfl
  · rw [tilde, shown_escape (by decide), shown_self (by simp [ShowsItself])]

/-- The backslash in front of what would be a fence is not shown. -/
theorem shown_guardFence (w : Text) : shown (Line.guardFence w) = shown w := by
  cases found : Fence.open? w with
  | none => rw [guardFence_of_none found]
  | some fence =>
    obtain ⟨blanks, info, opening⟩ := Fence.open?_sound found
    have self : ∀ c ∈ blanks, ShowsItself c := by
      intro c inside
      have blank := opening.blank c inside
      refine showsItself_of_ordinary (isSpecial_of_isBlank blank) ?_
      rintro rfl
      exact absurd blank (by decide)
    rw [Fence.Opening.guardFence opening, shown_plain self, shown_markers opening, ← shown_plain self, ← opening.shape]

theorem length_le_guardFence (w : Text) : w.length ≤ (Line.guardFence w).length := by
  rcases guardFence_cases w with same | ⟨blanks, marks, -, shape, guarded⟩
  · rw [same]
  · rw [guarded, shape]
    simp

/-- A line without markup and links is written at least as long as the pieces it was admitted with. -/
theorem totalWidth_le_render (bare : Bare s) :
    totalWidth .mdx (scanLine .mdx s) ≤ (Line.render .mdx (.prose s (scanLine .mdx s))).length := by
  obtain ⟨flags, whole⟩ : ∃ flags, settle flags (scanLine .mdx s) = scanLine .mdx s := ⟨_, settle_replicate (Nat.le_refl _)⟩
  have written : (weld .mdx none false false (settle flags (scanLine .mdx s))).length = totalWidth .mdx (scanLine .mdx s) :=
    (shown_weld (reading_scan .mdx true none s) bare).2
  rw [whole] at written
  rw [← written]
  exact length_le_guardFence _

/-- Escaping a line for MDX changes nothing of what it shows: a line without markup and links whose written form is
within the limit shows the same before and after. -/
theorem shown_sanitize {line : Text} {limit : Nat} (oneLine : Text.IsLine line) (noAngle : '<' ∉ line)
    (noLink : ¬ [']', '('] <:+: line) (fits : (Line.render .mdx (.prose line (scanLine .mdx line))).length ≤ limit) :
    shown (sanitize ⟨.mdx, limit⟩ line) = shown line := by
  have passed := passed_run ⟨.mdx, limit⟩ line
  rw [Text.splitLines_line oneLine] at passed
  have bare : Bare line := ⟨noAngle, noLink⟩
  rw [sanitize, Pass.output]
  generalize (Pass.run ⟨.mdx, limit⟩ line).lines = lines at passed
  cases passed with
  | cons settled rest =>
    cases rest
    rw [List.map_singleton, Text.joinWith_singleton]
    cases settled with
    | fenced => rfl
    | prose flags => exact (shown_guardFence _).trans (shown_weld (reading_scan .mdx true none line) bare).1
    | replaced _ long => exact absurd ((totalWidth_le_render bare).trans fits) (Nat.not_le_of_gt long)

/-- An escape, an expression, an entity, a bare `>`, a run of backticks that stays open, a comment and backslashes. -/
def mixedLine : Text := "\\\x7b \x7bx\x7d &lt; 1 > 0 ``a` \x7b/* \x7bc\x7d */\x7d \\\\\x7b"

theorem shown_sanitize_mixedLine :
    Text.IsLine mixedLine ∧ '<' ∉ mixedLine ∧ (¬ [']', '('] <:+: mixedLine) ∧
      (Line.render .mdx (.prose mixedLine (scanLine .mdx mixedLine))).length ≤ 50 ∧ sanitize ⟨.mdx, 50⟩ mixedLine ≠ mixedLine ∧
      shown (sanitize ⟨.mdx, 50⟩ mixedLine) = shown mixedLine := by
  have oneLine : Text.IsLine mixedLine := by
    unfold Text.IsLine
    decide
  have noLink : ¬ [']', '('] <:+: mixedLine := by decide +kernel
  have fits : (Line.render .mdx (.prose mixedLine (scanLine .mdx mixedLine))).length ≤ 50 := by decide +kernel
  exact ⟨oneLine, by decide, noLink, fits, by decide +kernel, shown_sanitize oneLine (by decide) noLink fits⟩

end NotebookPages.Markup
