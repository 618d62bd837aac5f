import NotebookPages.Proofs.Markup.Reading
import NotebookPages.Proofs.Markup.TagLocality
import NotebookPages.Proofs.Text.Trim

/-! Blanks around a line are read one by one. What a line holds is found again in the line without them. -/

namespace NotebookPages.Markup

variable {d : Dialect} {q : Bool} {b b' : Option Char} {a a' r r' s v w : Text} {p p' : Piece} {ps : List Piece} {t : Tag} {n : Nat}

theorem isDataUrl_replace {u : Text} (data : isDataUrl (u ++ ')' :: r) = true) (r' : Text) : isDataUrl (u ++ ')' :: r') = true := by
  rcases u with _ | ⟨_, _ | ⟨_, _ | ⟨_, _ | ⟨_, _ | ⟨_, u⟩⟩⟩⟩⟩
  case cons.cons.cons.cons.cons => exact data
  all_goals simp [isDataUrl, Text.sameLetters, Text.asciiLower] at data

theorem afterDataLink?_replace (found : afterDataLink? (a ++ r) = some r) (r' : Text) : afterDataLink? (a ++ r') = some r' := by
  obtain ⟨x, rfl⟩ := eq_of_afterDataLink? found
  unfold afterDataLink? at found ⊢
  simp only [String.reduceToList, List.cons_append] at found ⊢
  split at found
  next => cases found
  next label url opened =>
    split at found
    next data =>
      obtain ⟨⟨front, back⟩, closed, same⟩ := Option.map_eq_some_iff.mp found
      obtain rfl : back = r := same
      obtain ⟨rfl, absent⟩ := Text.cut_singleton.mp closed
      have whole := Text.eq_of_cut opened
      obtain rfl : x = label ++ ([']', '('] ++ front) := by
        have cancel : (x ++ [')']) ++ back = ((label ++ ([']', '('] ++ front)) ++ [')']) ++ back := by simpa using whole
        exact List.append_cancel_right (List.append_cancel_right cancel)
      have opened' := Text.cut_append label (front ++ ')' :: back) (front ++ ')' :: r') (by rw [← whole]; exact opened)
      have closed' : Text.cut [')'] (front ++ ')' :: r') = some (front, r') := Text.cut_singleton.mpr ⟨rfl, absent⟩
      have shape : label ++ ([']', '('] ++ front) ++ [')'] ++ r' = label ++ ([']', '('] ++ (front ++ ')' :: r')) := by simp
      rw [shape, opened']
      simp [isDataUrl_replace data r', closed']
    next => cases found

theorem afterDataLink?_append (found : afterDataLink? s = some r) (v : Text) : afterDataLink? (s ++ v) = some (r ++ v) := by
  obtain ⟨x, shape⟩ := afterDataLink?_sound found
  obtain rfl : s = ('[' :: (x ++ [')'])) ++ r := by simpa using shape
  rw [List.append_assoc]
  exact afterDataLink?_replace found (r ++ v)

theorem autolink?_replace (closer : '>' ∈ a) (noLink : autolink? (a ++ r) = none) (r' : Text) : autolink? (a ++ r') = none := by
  cases found : autolink? (a ++ r') with
  | none => rfl
  | some result =>
    obtain ⟨url, rest⟩ := result
    obtain ⟨shape, valid⟩ := autolink?_eq_some_iff.mp found
    have absent : '>' ∉ '<' :: url := by
      intro inside
      rcases List.mem_cons.mp inside with same | inside
      · exact absurd same (by decide)
      · exact not_isUrlChar (by decide) valid.1 inside
    rcases List.append_eq_append_iff.mp (show a ++ r' = ('<' :: url) ++ ('>' :: rest) from shape) with ⟨x, longer, -⟩ | ⟨x, shorter, behind⟩
    · exact absurd (by rw [longer]; exact List.mem_append_left x closer) absent
    · cases x with
      | nil =>
        rw [shorter, List.append_nil] at closer
        exact absurd closer absent
      | cons c x =>
        obtain ⟨rfl, rfl⟩ := List.cons.inj behind
        have again : autolink? (a ++ r) = some (url, x ++ r) :=
          autolink?_eq_some_iff.mpr ⟨by rw [shorter]; simp, valid⟩
        rw [again] at noLink
        cases noLink

theorem Tag.Spelling.mem (spelled : Tag.Spelling a t) : '>' ∈ a := by
  obtain ⟨x, rfl⟩ := spelled.closes
  simp

/-- Two tokens at one place are the same piece. -/
theorem Token.unique (one : Token d q b a r p) (other : Token d q b a' r' p') (same : a ++ r = a' ++ r') : p = p' := by
  have first := scanFrom_token one
  rw [same, scanFrom_token other] at first
  exact (List.cons.inj first).1.symm

theorem Token.eq_of_ordinary {c : Char} {x : Text} (token : Token d q b (c :: x) r p) (ordinary : isSpecial d c = false) :
    x = [] ∧ p = .plain [c] := by
  have alone : p = .plain [c] := token.unique (.plain ordinary : Token d q b [c] (x ++ r) _) rfl
  have source := token.source_eq
  rw [alone] at source
  exact ⟨(List.cons.inj source).2.symm, alone⟩

/-- The text ends nothing that stands before it. -/
def Inert (v : Text) : Prop := ∀ c ∈ v, isBacktick c = false ∧ Text.isLetter c = false ∧ c ≠ '/' ∧ c ≠ '!'

theorem inert_of_blank (blank : Text.Blank v) : Inert v := by
  intro c inside
  have solid := blank c inside
  refine ⟨not_isBacktick_of_blank blank c inside, Text.not_isLetter_of_isBlank solid, ?_, ?_⟩ <;> rintro rfl <;>
    exact absurd solid (by decide)

theorem any_head?_append {P : Char → Bool} (plain : ∀ c ∈ v, P c = false) : (r ++ v).head?.any P = r.head?.any P := by
  cases r with
  | cons c r => rfl
  | nil =>
    cases v with
    | nil => rfl
    | cons c v => exact plain c List.mem_cons_self

theorem any_head?_of_append {P : Char → Bool} (none : (r ++ v).head?.any P = false) : r.head?.any P = false := by
  cases r with
  | nil => rfl
  | cons c r => exact none

theorem unticked_append_iff (inert : Inert v) : Unticked (r ++ v) ↔ Unticked r := by
  cases r with
  | cons c r => exact Iff.rfl
  | nil =>
    refine ⟨fun _ => unticked_nil, fun _ c first => ?_⟩
    exact (inert c (List.mem_of_head? first)).1

theorem free_of_append (positive : 0 < n) (inert : Inert v) (free : Free n (r ++ v)) : Free n r := by
  have unticked : Unticked v := (unticked_append_iff (r := []) inert).mpr unticked_nil
  have pending := (afterRun?_eq_none_iff positive unticked).mp ((afterRun?_append free v).symm.trans free)
  have whole := afterRun?_append free []
  rw [List.append_nil] at whole
  exact whole.trans ((afterRun?_eq_none_iff positive unticked_nil).mpr ⟨pending.1, free_of_plain positive (by simp)⟩)

theorem keepsGreater_append (inert : Inert v) : keepsGreater q b (r ++ v) = keepsGreater q b r := by
  unfold keepsGreater
  rw [any_head?_append fun c inside => (inert c inside).2.1]

theorem not_comment_of_letter {body : Text} (letter : (body ++ '>' :: r).head?.any Text.isLetter = true) (r' : Text) :
    Text.after? ['!', '-', '-'] ('!' :: (body ++ '>' :: r')) = none ∧ (body ++ '>' :: r').head?.any Text.isLetter = true := by
  cases body with
  | nil => exact absurd letter (by simp; decide)
  | cons c body =>
    refine ⟨?_, letter⟩
    cases found : Text.after? ['!', '-', '-'] ('!' :: (c :: body ++ '>' :: r')) with
    | none => rfl
    | some rest =>
      have shape := Text.after?_eq_some_iff.mp found
      obtain rfl : c = '-' := (List.cons.inj (List.cons.inj shape).2).1
      exact absurd letter (by simp; decide)

theorem readAngle_of_append (inert : Inert v) (fails : readAngle d (r ++ v) = escapeAngle (r ++ v)) :
    readAngle d r = escapeAngle r := by
  cases read : readAngle d r with
  | mk p after =>
    obtain ⟨x, rfl, token⟩ : ∃ x, r = x ++ after ∧ Token d false none ('<' :: x) after p := token_of_readAngle read
    have here : Token d false none ['<'] (x ++ after ++ v) (.text ['<'] ['&', 'l', 't', ';'] (some .bareAngleBracket)) := .less fails
    have other : ∀ {p'}, Token d false none ('<' :: x) (after ++ v) p' → p' = .text ['<'] ['&', 'l', 't', ';'] (some .bareAngleBracket) :=
      fun longer => longer.unique here (by simp)
    generalize lead : '<' :: x = a at token other
    cases token with
    | plain ordinary =>
      obtain rfl := (List.cons.inj lead).1
      cases d <;> exact absurd ordinary (by decide)
    | code span =>
      obtain ⟨y, rfl⟩ := span.starts
      cases lead
    | @ticks n _ positive =>
      obtain ⟨n, rfl⟩ := Nat.exists_eq_succ_of_ne_zero (Nat.ne_of_gt positive)
      cases lead
    | comment mdx whole =>
      obtain ⟨⟨y, rfl⟩, -⟩ := whole
      cases lead
    | brace mdx bare =>
      obtain rfl := (List.cons.inj lead).1
      rcases bare with ⟨same, -⟩ | same <;> cases same
    | link mark found =>
      obtain ⟨y, rfl⟩ := eq_of_afterDataLink? found
      rcases mark with rfl | rfl <;> cases lead
    | backslash | escape | bang | bracket | quote | greater => cases lead
    | less alone =>
      cases lead
      rfl
    | angle markdown stop =>
      have kept : ∀ c, (after ++ v).head? = some c → Text.isLetter c = false ∧ c ≠ '/' ∧ c ≠ '!' := by
        intro c first
        cases after with
        | cons e after => exact stop c first
        | nil => exact (inert c (List.mem_of_head? first)).2
      exact absurd (other (.angle markdown kept)) (by simp [Piece.plain])
    | htmlComment mdx ends => exact absurd (other (.htmlComment mdx ends)) (by simp)
    | keptComment markdown ends => exact absurd (other (.keptComment markdown ends)) (by simp [Piece.plain])
    | declaration _ letter ends =>
      obtain ⟨notComment, letter⟩ := not_comment_of_letter letter (after ++ v)
      cases other (.declaration notComment letter ends)
    | autolink mdx valid => exact absurd (other (.autolink mdx valid)) (by simp)
    | keptAutolink markdown valid => exact absurd (other (.keptAutolink markdown valid)) (by simp [Piece.plain])
    | tag spelled found noLink harmless =>
      have token : Token d false none a (after ++ v) _ := .tag spelled (Tag.read?_replace found (after ++ v)) (autolink?_replace (Tag.Spelling.mem spelled) noLink _) harmless
      cases other token
    | dataImage spelled found noLink harmful =>
      have token : Token d false none a (after ++ v) _ := .dataImage spelled (Tag.read?_replace found (after ++ v)) (autolink?_replace (Tag.Spelling.mem spelled) noLink _) harmful
      cases other token

/-- What is read before an inert text is read without it. -/
theorem Token.trim (token : Token d q b a (r ++ v) p) (inert : Inert v) : Token d q b a r p := by
  cases token with
  | plain ordinary => exact .plain ordinary
  | backslash alone => exact .backslash (any_head?_of_append alone)
  | escape mark => exact .escape mark
  | code span stop => exact .code span ((unticked_append_iff inert).mp stop)
  | ticks positive stop free => exact .ticks positive ((unticked_append_iff inert).mp stop) (free_of_append positive inert free)
  | comment mdx whole => exact .comment mdx whole
  | @brace c _ mdx bare =>
    refine .brace mdx (bare.imp_left fun ⟨opens, absent⟩ => ⟨opens, ?_⟩)
    cases found : afterComment? (c :: r) with
    | none => rfl
    | some rest =>
      obtain ⟨comment, whole, valid⟩ := afterComment?_sound found
      have again := valid.2 (rest ++ v)
      rw [← List.append_assoc, ← whole, List.cons_append, absent] at again
      cases again
  | bang noLink =>
    refine .bang ?_
    cases found : afterDataLink? r with
    | none => rfl
    | some rest =>
      rw [afterDataLink?_append found v] at noLink
      cases noLink
  | bracket noLink =>
    refine .bracket ?_
    cases found : afterDataLink? ('[' :: r) with
    | none => rfl
    | some rest =>
      rw [← List.cons_append, afterDataLink?_append found v] at noLink
      cases noLink
  | link mark found => exact .link mark (afterDataLink?_replace found r)
  | quote mdx kept => exact .quote mdx (by rwa [keepsGreater_append inert] at kept)
  | greater mdx bare => exact .greater mdx (by rwa [keepsGreater_append inert] at bare)
  | less fails => exact .less (readAngle_of_append inert fails)
  | angle markdown stop => exact .angle markdown fun c first => stop c (by rw [List.head?_append, first]; rfl)
  | htmlComment mdx ends => exact .htmlComment mdx ends
  | keptComment markdown ends => exact .keptComment markdown ends
  | declaration _ letter ends =>
    obtain ⟨notComment, letter⟩ := not_comment_of_letter letter r
    exact .declaration notComment letter ends
  | autolink mdx valid => exact .autolink mdx valid
  | keptAutolink markdown valid => exact .keptAutolink markdown valid
  | tag spelled found noLink harmless =>
    exact .tag spelled (Tag.read?_replace found r) (autolink?_replace (Tag.Spelling.mem spelled) noLink r) harmless
  | dataImage spelled found noLink harmful =>
    exact .dataImage spelled (Tag.read?_replace found r) (autolink?_replace (Tag.Spelling.mem spelled) noLink r) harmful

theorem scanFrom_of_before (same : b.any Text.isLetter = b'.any Text.isLetter) (s : Text) : scanFrom d 0 q b s = scanFrom d 0 q b' s := by
  cases s with
  | nil => rfl
  | cons c s =>
    have first : nextPiece d q b c s = nextPiece d q b' c s := by
      unfold nextPiece
      simp only [same]
    rw [scanFrom, scanFrom, first]

/-- A token is one character, an escape, or ends with a mark. -/
theorem Token.ends (token : Token d q b a r p) : (∃ c, a = [c] ∧ p = .plain [c]) ∨
    (∃ m, a = ['\\', m] ∧ p = .plain ['\\', m] ∧ Text.isPunctuation m = true) ∨
      ∃ x e, a = x ++ [e] ∧ e ∈ ['`', '\x7d', ')', '>', '<', '\x7b'] := by
  have marked : ∀ (x : Text) (e : Char), e ∈ ['`', '\x7d', ')', '>', '<', '\x7b'] →
      ∃ y k, x ++ [e] = y ++ [k] ∧ k ∈ ['`', '\x7d', ')', '>', '<', '\x7b'] := fun x e mark => ⟨x, e, rfl, mark⟩
  cases token with
  | plain | backslash | bang | bracket | quote | angle => exact Or.inl ⟨_, rfl, rfl⟩
  | escape mark => exact Or.inr (Or.inl ⟨_, rfl, rfl, mark⟩)
  | code span =>
    obtain ⟨x, rfl⟩ := List.getLast?_eq_some_iff.mp span.stops
    exact Or.inr (Or.inr (marked x '`' (by decide)))
  | @ticks n _ positive =>
    obtain ⟨n, rfl⟩ := Nat.exists_eq_succ_of_ne_zero (Nat.ne_of_gt positive)
    rw [List.replicate_succ']
    exact Or.inr (Or.inr (marked _ '`' (by decide)))
  | comment mdx whole =>
    obtain ⟨⟨x, rfl⟩, -⟩ := whole
    exact Or.inr (Or.inr (marked ('\x7b' :: x) '\x7d' (by decide)))
  | brace mdx bare =>
    right
    right
    rcases bare with ⟨rfl, -⟩ | rfl
    · exact marked [] '\x7b' (by decide)
    · exact marked [] '\x7d' (by decide)
  | @link bang _ _ mark found =>
    obtain ⟨x, rfl⟩ := eq_of_afterDataLink? found
    rw [← List.cons_append, ← List.append_assoc]
    exact Or.inr (Or.inr (marked _ ')' (by decide)))
  | greater => exact Or.inr (Or.inr (marked [] '>' (by decide)))
  | less => exact Or.inr (Or.inr (marked [] '<' (by decide)))
  | @htmlComment body | @keptComment body =>
    rw [show '<' :: '!' :: '-' :: '-' :: (body ++ ['-', '-', '>']) = ('<' :: '!' :: '-' :: '-' :: (body ++ ['-', '-'])) ++ ['>'] by simp]
    exact Or.inr (Or.inr (marked _ '>' (by decide)))
  | @declaration body => exact Or.inr (Or.inr (marked ('<' :: '!' :: body) '>' (by decide)))
  | @autolink url | @keptAutolink url => exact Or.inr (Or.inr (marked ('<' :: url) '>' (by decide)))
  | tag spelled | dataImage spelled =>
    obtain ⟨x, rfl⟩ := spelled.closes
    exact Or.inr (Or.inr (marked ('<' :: x) '>' (by decide)))

theorem Token.eq_of_blank (token : Token d q b a r p) {c : Char} (last : a.getLast? = some c) (blank : Text.isBlank c = true) :
    a = [c] ∧ p = .plain [c] := by
  rcases token.ends with ⟨e, rfl, rfl⟩ | ⟨m, rfl, -, mark⟩ | ⟨x, e, rfl, mark⟩
  · obtain rfl : e = c := by simpa using last
    exact ⟨rfl, rfl⟩
  · obtain rfl : m = c := by simpa using last
    rw [Text.not_isPunctuation_of_isBlank blank] at mark
    cases mark
  · obtain rfl : e = c := by simpa using last
    have solid : ∀ e ∈ ['`', '\x7d', ')', '>', '<', '\x7b'], Text.isBlank e = false := Text.forall_mem_of_all (by decide)
    rw [solid e mark] at blank
    cases blank

theorem reading_blank (blank : Text.Blank v) : Reading d [] q b v (v.map fun c => .plain [c]) :=
  .ordinary fun c inside => isSpecial_of_isBlank (blank c inside)

/-- A line is read up to the blanks that end it, and they are read one by one. -/
theorem Reading.trim (reading : Reading d [] q b s ps) (blank : Text.Blank v) (whole : s = w ++ v)
    (solid : ∀ c, w.getLast? = some c → Text.isBlank c = false) :
    ∃ qs, ps = qs ++ v.map (fun c => .plain [c]) ∧ Reading d [] q b w qs := by
  induction reading generalizing w with
  | done =>
    obtain ⟨rfl, rfl⟩ := List.append_eq_nil_iff.mp whole.symm
    exact ⟨[], rfl, .done⟩
  | @more q b a r p ps token rest ih =>
    rw [List.append_nil] at token
    by_cases empty : w = []
    · subst empty
      rw [List.nil_append] at whole
      have here := Reading.more (by rwa [List.append_nil]) rest
      rw [whole] at here
      exact ⟨[], here.unique (reading_blank blank), .done⟩
    · rcases List.append_eq_append_iff.mp whole with ⟨w', rfl, rfl⟩ | ⟨v', rfl, rfl⟩
      · have later : ∀ c, w'.getLast? = some c → Text.isBlank c = false := by
          intro c last
          exact solid c (by rw [List.getLast?_append, last]; rfl)
        obtain ⟨qs, rfl, inner⟩ := ih rfl later
        exact ⟨p :: qs, rfl, .more (by rw [List.append_nil]; exact token.trim (inert_of_blank blank)) inner⟩
      · have inside : v' = [] := by
          by_contra some
          have last := List.getLast?_eq_some_getLast some
          have ends : (w ++ v').getLast? = Option.some (v'.getLast some) := by rw [List.getLast?_append, last]; rfl
          have single := (token.eq_of_blank ends (blank _ (List.mem_append_left r (List.getLast_mem some)))).1
          have length := congrArg List.length single
          have one := List.length_pos_iff.mpr empty
          have two := List.length_pos_iff.mpr some
          rw [List.length_append, List.length_singleton] at length
          omega
        subst inside
        rw [List.nil_append] at blank
        refine ⟨[p], ?_, ?_⟩
        · rw [rest.unique (reading_blank blank)]
          rfl
        · have alone : Token d q b w ([] ++ r) p := by simpa using token
          exact .single (alone.trim (inert_of_blank blank))

theorem all_isLead_of_blank {u : Text} (blank : Text.Blank u) : u.all isLead = true := by
  rw [List.all_eq_true]
  intro c inside
  simp [isLead, blank c inside]

theorem scanLine_pad {u : Text} (front : Text.Blank u) (back : Text.Blank v) (solid : ∀ c, w.getLast? = some c → Text.isBlank c = false) :
    scanLine d (u ++ (w ++ v)) = u.map (fun c => .plain [c]) ++ (scanLine d w ++ v.map fun c => .plain [c]) := by
  have lead : Reading d (w ++ v ++ []) true none u (u.map fun c => .plain [c]) :=
    .ordinary fun c inside => isSpecial_of_isBlank (front c inside)
  have rest := reading_scan d (true && u.all isLead) (u.getLast?.or none) (w ++ v)
  have letter : (u.getLast?.or none).any Text.isLetter = (none : Option Char).any Text.isLetter := by
    cases last : u.getLast? with
    | none => rfl
    | some c => simpa using Text.not_isLetter_of_isBlank (front c (List.mem_of_getLast? last))
  have line := (lead.append rest).scan_eq
  rw [all_isLead_of_blank front, scanFrom_of_before letter] at line
  obtain ⟨qs, whole, inner⟩ := (reading_scan d true none (w ++ v)).trim back rfl solid
  rw [scanLine, line, Bool.and_self, whole, scanLine, inner.scan_eq]

/-- What can be said of the pieces of a line one by one, and of which blanks say nothing, is said of the line without
the blanks around it. -/
theorem filterMap_scanLine_pad {α : Type} {f : Piece → Option α} (silent : ∀ c, f (.plain [c]) = none) {u : Text} (front : Text.Blank u)
    (back : Text.Blank v) (w : Text) : (scanLine d (u ++ (w ++ v))).filterMap f = (scanLine d w).filterMap f := by
  obtain ⟨v', whole, blank, solid⟩ := Text.dropEndWhile_split Text.isBlank w
  generalize Text.dropEndWhile Text.isBlank w = w' at whole solid
  have none : ∀ x : Text, (x.map fun c => Piece.plain [c]).filterMap f = [] := by
    intro x
    rw [List.filterMap_map, List.filterMap_eq_nil_iff]
    intro c _
    exact silent c
  have behind : Text.Blank (v' ++ v) := Text.Blank.append blank back
  have bare : scanLine d w = scanLine d w' ++ v'.map fun c => .plain [c] := by
    have padded := scanLine_pad (d := d) (u := []) (by simp [Text.Blank]) blank solid
    rw [whole]
    exact padded
  rw [bare, whole, List.append_assoc, scanLine_pad front behind solid]
  simp only [List.filterMap_append, none, List.nil_append, List.append_nil]

end NotebookPages.Markup
