import NotebookPages.Proofs.Markup.Lexemes

/-! What a piece can be. A token is a piece with its source and what follows it; each kind says what the
reader has checked. Facts about pieces are proved by cases on tokens, and the reader is not opened again. -/

namespace NotebookPages.Markup

/-- Characters that may begin something other than themselves. -/
def isSpecial (d : Dialect) (c : Char) : Bool :=
  c == '\\' || c == '`' || c == '<' || c == '!' || c == '[' || (d == .mdx && (c == '\x7b' || c == '\x7d' || c == '>'))

theorem isSpecial_of_isBlank {d : Dialect} {c : Char} (blank : Text.isBlank c = true) : isSpecial d c = false := by
  cases special : isSpecial d c with
  | false => rfl
  | true =>
    have marks : c ∈ ['\\', '`', '<', '!', '[', '\x7b', '\x7d', '>'] := by
      simp only [isSpecial, Bool.or_eq_true, Bool.and_eq_true, beq_iff_eq] at special
      simp only [List.mem_cons, List.not_mem_nil, or_false]
      rcases special with ((((h | h) | h) | h) | h) | ⟨-, (h | h) | h⟩ <;> simp [h]
    simp only [List.mem_cons, List.not_mem_nil, or_false] at marks
    rcases marks with rfl | rfl | rfl | rfl | rfl | rfl | rfl | rfl <;> exact absurd blank (by decide)

/-- A `>` that is written as it stands: it marks a quotation or touches a letter. -/
def keepsGreater (quoting : Bool) (before : Option Char) (r : Text) : Bool :=
  quoting || before.any Text.isLetter || r.head?.any Text.isLetter

/-- A piece that is read from `a` where `r` follows. `quoting` and `before` say what precedes it. -/
inductive Token (d : Dialect) (quoting : Bool) (before : Option Char) : Text → Text → Piece → Prop where
  | plain {c : Char} {r : Text} (ordinary : isSpecial d c = false) : Token d quoting before [c] r (.plain [c])
  | backslash {r : Text} (alone : r.head?.any Text.isPunctuation = false) :
      Token d quoting before ['\\'] r (.plain ['\\'])
  | escape {m : Char} {r : Text} (mark : Text.isPunctuation m = true) :
      Token d quoting before ['\\', m] r (.plain ['\\', m])
  | code {a r : Text} (span : IsCode a) (stop : Unticked r) : Token d quoting before a r (.plain a)
  | ticks {n : Nat} {r : Text} (positive : 0 < n) (stop : Unticked r) (free : Free n r) :
      Token d quoting before (List.replicate n '`') r (.plain (List.replicate n '`'))
  | comment {a r : Text} (mdx : d = .mdx) (whole : IsComment a) : Token d quoting before a r (.plain a)
  | brace {c : Char} {r : Text} (mdx : d = .mdx)
      (bare : c = '\x7b' ∧ afterComment? (c :: r) = none ∨ c = '\x7d') :
      Token d quoting before [c] r (.text [c] ['\\', c] (some .unescapedBrace))
  | bang {r : Text} (noLink : afterDataLink? r = none) : Token d quoting before ['!'] r (.plain ['!'])
  | bracket {r : Text} (noLink : afterDataLink? ('[' :: r) = none) : Token d quoting before ['['] r (.plain ['['])
  | link {bang a r : Text} (mark : bang = [] ∨ bang = ['!']) (found : afterDataLink? (a ++ r) = some r) :
      Token d quoting before (bang ++ a) r (.text (bang ++ a) imageOmitted (some .dataUrl))
  | quote {r : Text} (mdx : d = .mdx) (kept : keepsGreater quoting before r = true) :
      Token d quoting before ['>'] r (.plain ['>'])
  | greater {r : Text} (mdx : d = .mdx) (bare : keepsGreater quoting before r = false) :
      Token d quoting before ['>'] r (.text ['>'] ['&', 'g', 't', ';'] (some .bareAngleBracket))
  | less {r : Text} (fails : readAngle d r = escapeAngle r) :
      Token d quoting before ['<'] r (.text ['<'] ['&', 'l', 't', ';'] (some .bareAngleBracket))
  | angle {r : Text} (markdown : d = .markdown)
      (stop : ∀ c, r.head? = some c → Text.isLetter c = false ∧ c ≠ '/' ∧ c ≠ '!') :
      Token d quoting before ['<'] r (.plain ['<'])
  | htmlComment {body r : Text} (mdx : d = .mdx) (ends : IsCommentBody body) :
      Token d quoting before ('<' :: '!' :: '-' :: '-' :: (body ++ ['-', '-', '>'])) r
        (.text ('<' :: '!' :: '-' :: '-' :: (body ++ ['-', '-', '>'])) (Dialect.mdx.comment (Text.trim body)) (some .htmlComment))
  | keptComment {body r : Text} (markdown : d = .markdown) (ends : IsCommentBody body) :
      Token d quoting before ('<' :: '!' :: '-' :: '-' :: (body ++ ['-', '-', '>'])) r
        (.plain ('<' :: '!' :: '-' :: '-' :: (body ++ ['-', '-', '>'])))
  | declaration {body r : Text} (other : Text.after? ['!', '-', '-'] ('!' :: (body ++ '>' :: r)) = none)
      (letter : (body ++ '>' :: r).head?.any Text.isLetter = true) (ends : '>' ∉ body) :
      Token d quoting before ('<' :: '!' :: (body ++ ['>'])) r (.dropped ('<' :: '!' :: (body ++ ['>'])))
  | autolink {url r : Text} (mdx : d = .mdx) (valid : IsUrl url) :
      Token d quoting before ('<' :: (url ++ ['>'])) r
        (.text ('<' :: (url ++ ['>'])) ('[' :: (url ++ (']' :: '(' :: (url ++ [')'])))) none)
  | keptAutolink {url r : Text} (markdown : d = .markdown) (valid : IsUrl url) :
      Token d quoting before ('<' :: (url ++ ['>'])) r (.plain ('<' :: (url ++ ['>'])))
  | tag {a r : Text} {t : Tag} (spelled : Tag.Spelling a t) (found : Tag.read? (a ++ r) = some (t, r))
      (noLink : autolink? (a ++ r) = none) (harmless : t.isDataImage = false) : Token d quoting before a r (.tag a t)
  | dataImage {a r : Text} {t : Tag} (spelled : Tag.Spelling a t) (found : Tag.read? (a ++ r) = some (t, r))
      (noLink : autolink? (a ++ r) = none) (harmful : t.isDataImage = true) :
      Token d quoting before a r (.text a imageOmitted (some .dataUrl))

variable {d : Dialect} {quoting : Bool} {before : Option Char} {a r : Text} {p : Piece}

theorem Token.source_eq (token : Token d quoting before a r p) : p.source = a := by
  cases token <;> rfl

theorem after?_of_head {s : Text} (other : ∀ c, s.head? = some c → c ≠ '!') : Text.after? ['!', '-', '-'] s = none := by
  cases found : Text.after? ['!', '-', '-'] s with
  | none => rfl
  | some rest =>
    have whole := Text.after?_eq_some_iff.mp found
    exact absurd rfl (other '!' (by rw [whole]; rfl))

def commentPiece (d : Dialect) (body : Text) : Piece :=
  let source : Text := '<' :: '!' :: '-' :: '-' :: (body ++ ['-', '-', '>'])
  match d with
  | .mdx => .text source (Dialect.mdx.comment (Text.trim body)) (some .htmlComment)
  | .markdown => .plain source

def linkPiece (d : Dialect) (url : Text) : Piece :=
  let source : Text := '<' :: (url ++ ['>'])
  match d with
  | .mdx => .text source ('[' :: (url ++ (']' :: '(' :: (url ++ [')'])))) none
  | .markdown => .plain source

def tagPiece (a : Text) (t : Tag) : Piece := if t.isDataImage then .text a imageOmitted (some .dataUrl) else .tag a t

variable {body url : Text} {t : Tag}

theorem token_comment (ends : IsCommentBody body) :
    Token d quoting before ('<' :: '!' :: '-' :: '-' :: (body ++ ['-', '-', '>'])) r (commentPiece d body) := by
  cases d with
  | mdx => exact .htmlComment rfl ends
  | markdown => exact .keptComment rfl ends

theorem token_autolink (valid : IsUrl url) : Token d quoting before ('<' :: (url ++ ['>'])) r (linkPiece d url) := by
  cases d with
  | mdx => exact .autolink rfl valid
  | markdown => exact .keptAutolink rfl valid

theorem token_tag (spelled : Tag.Spelling a t) (found : Tag.read? (a ++ r) = some (t, r)) (noLink : autolink? (a ++ r) = none) :
    Token d quoting before a r (tagPiece a t) := by
  unfold tagPiece
  split
  next harmful => exact .dataImage spelled found noLink harmful
  next harmless => exact .tag spelled found noLink (Bool.eq_false_iff.mpr harmless)

theorem readAngle_comment (ends : IsCommentBody body) :
    readAngle d ('!' :: '-' :: '-' :: (body ++ ['-', '-', '>']) ++ r) = (commentPiece d body, r) := by
  have opened : Text.after? ['!', '-', '-'] ('!' :: '-' :: '-' :: (body ++ ['-', '-', '>']) ++ r) =
      some (body ++ ['-', '-', '>'] ++ r) := Text.after?_eq_some_iff.mpr rfl
  have closed : Text.cut ['-', '-', '>'] (body ++ ['-', '-', '>'] ++ r) = some (body, r) := by
    rw [List.append_assoc]
    exact ends r
  unfold readAngle
  simp only [String.reduceToList, opened, closed, Text.upTo_cons_append]
  cases d <;> rfl

theorem readAngle_declaration (other : Text.after? ['!', '-', '-'] ('!' :: (body ++ '>' :: r)) = none)
    (letter : (body ++ '>' :: r).head?.any Text.isLetter = true) (ends : '>' ∉ body) :
    readAngle d ('!' :: (body ++ ['>']) ++ r) = (.dropped ('<' :: '!' :: (body ++ ['>'])), r) := by
  have shape : '!' :: (body ++ ['>']) ++ r = '!' :: (body ++ '>' :: r) := by simp
  have closed : Text.cut ['>'] (body ++ '>' :: r) = some (body, r) := Text.cut_singleton.mpr ⟨rfl, ends⟩
  have source := Text.upTo_cons_append '<' ('!' :: (body ++ ['>'])) r
  rw [shape] at source ⊢
  unfold readAngle
  simp only [String.reduceToList, other, closed, letter, source, if_true]

theorem readAngle_autolink (valid : IsUrl url) : readAngle d (url ++ ['>'] ++ r) = (linkPiece d url, r) := by
  have linked : autolink? ('<' :: (url ++ ['>'] ++ r)) = some (url, r) := autolink?_eq_some_iff.mpr ⟨by simp, valid⟩
  have source := Text.upTo_cons_append '<' (url ++ ['>']) r
  obtain ⟨c, x, rfl, letter⟩ := valid.first
  have bang : c ≠ '!' := by
    rintro rfl
    exact absurd letter (by decide)
  have other := after?_of_head (s := c :: x ++ ['>'] ++ r) fun e first => by
    obtain rfl : c = e := by simpa using first
    exact bang
  unfold readAngle
  simp only [String.reduceToList, other, linked, source]
  split
  next same => exact absurd (List.cons.inj same).1 bang
  next => cases d <;> simp [linkPiece]

theorem Tag.head_of_read? {s : Text} (found : Tag.read? ('<' :: s) = some (t, r)) :
    s.head?.any (fun c => Text.isLetter c || c == '/') = true ∧ s.head?.any (· == '!') = false := by
  unfold Tag.read? at found
  split at found
  next x same =>
    obtain rfl := (List.cons.inj same).2
    simp
  next x _ same =>
    obtain rfl := (List.cons.inj same).2
    unfold Tag.readNamed? at found
    split at found
    next letter =>
      cases s with
      | nil => simp at letter
      | cons c s =>
        have first : Text.isLetter c = true := by simpa using letter
        have other : c ≠ '!' := by
          rintro rfl
          exact absurd first (by decide)
        exact ⟨by simp [first], by simpa using other⟩
    next => cases found
  next => cases found

theorem readAngle_tag {x : Text} (found : Tag.read? ('<' :: x ++ r) = some (t, r)) (noLink : autolink? ('<' :: x ++ r) = none) :
    readAngle d (x ++ r) = (tagPiece ('<' :: x) t, r) := by
  have start : (x ++ r).head?.any (fun c => Text.isLetter c || c == '/') = true ∧ (x ++ r).head?.any (· == '!') = false :=
    Tag.head_of_read? found
  have other : Text.after? ['!', '-', '-'] (x ++ r) = none := by
    refine after?_of_head fun c first => ?_
    rintro rfl
    simp [first] at start
  rw [List.cons_append] at found noLink
  unfold readAngle
  simp only [String.reduceToList, other, noLink, start.1, found, if_true, Text.upTo_cons_append]
  split
  next same => simp [same] at start
  next =>
    unfold tagPiece
    split <;> rfl

theorem readAngle_plain (stop : ∀ c, r.head? = some c → Text.isLetter c = false ∧ c ≠ '/' ∧ c ≠ '!') :
    readAngle .markdown r = (.plain ['<'], r) := by
  have other := after?_of_head fun c first => (stop c first).2.2
  have noLink := autolink?_eq_none_of_head fun c first => (stop c first).1
  cases r with
  | nil => simp [readAngle, other, noLink]
  | cons c r =>
    obtain ⟨letter, slash, bang⟩ := stop c rfl
    simp [readAngle, other, noLink, letter, slash, bang]

theorem token_of_readAngle {r : Text} {after : Text} (read : readAngle d r = (p, after)) :
    ∃ x, r = x ++ after ∧ Token d quoting before ('<' :: x) after p := by
  have found : ∀ x rest {q}, r = x ++ rest → readAngle d (x ++ rest) = (q, rest) → Token d quoting before ('<' :: x) rest q →
      ∃ x, r = x ++ after ∧ Token d quoting before ('<' :: x) after p := by
    rintro x rest q rfl again token
    obtain ⟨rfl, rfl⟩ := Prod.mk.inj (read.symm.trans again)
    exact ⟨x, rfl, token⟩
  by_cases fails : readAngle d r = escapeAngle r
  · exact found [] r rfl fails (.less fails)
  have kept := fails
  unfold readAngle at kept
  simp only [String.reduceToList] at kept
  split at kept
  next inner opened =>
    obtain rfl := Text.after?_eq_some_iff.mp opened
    split at kept
    next => exact absurd rfl kept
    next body rest closed =>
      obtain rfl := Text.eq_of_cut closed
      have ends : IsCommentBody body := fun r' => Text.cut_append body rest r' closed
      exact found ('!' :: '-' :: '-' :: (body ++ ['-', '-', '>'])) rest (by simp) (readAngle_comment ends) (token_comment ends)
  next opened =>
    split at kept
    next declaration =>
      split at kept
      next body rest closed =>
        obtain ⟨rfl, absent⟩ := Text.cut_singleton.mp closed
        split at kept
        next letter =>
          exact found ('!' :: (body ++ ['>'])) rest (by simp) (readAngle_declaration opened letter absent) (.declaration opened letter absent)
        next => exact absurd rfl kept
      next => exact absurd rfl kept
    next other =>
      split at kept
      next url rest linked =>
        obtain ⟨shape, valid⟩ := autolink?_eq_some_iff.mp linked
        obtain rfl := (List.cons.inj shape).2
        exact found (url ++ ['>']) rest (by simp) (readAngle_autolink valid) (token_autolink valid)
      next noLink =>
        split at kept
        next start =>
          split at kept
          next t rest tagged =>
            obtain ⟨a, whole, spelled⟩ := Tag.read?_sound tagged
            obtain ⟨front, rfl⟩ := spelled.closes
            rw [whole] at tagged noLink
            exact found (front ++ ['>']) rest (List.cons.inj whole).2 (readAngle_tag tagged noLink) (token_tag spelled tagged noLink)
          next => exact absurd rfl kept
        next start =>
          cases d with
          | mdx => exact absurd rfl kept
          | markdown =>
            have stop : ∀ c, r.head? = some c → Text.isLetter c = false ∧ c ≠ '/' ∧ c ≠ '!' := by
              intro c first
              obtain ⟨rest, rfl⟩ := List.head?_eq_some_iff.mp first
              have plain : Text.isLetter c = false ∧ c ≠ '/' := by simpa using start
              exact ⟨plain.1, plain.2, fun same => other rest (by rw [same])⟩
            exact found [] r rfl (readAngle_plain stop) (.angle rfl stop)

private theorem length_sub (x after : Text) : (x ++ after).length - after.length = x.length := by simp

private theorem nextPiece_angle (s : Text) :
    nextPiece d quoting before '<' s = ((readAngle d s).1, s.length - (readAngle d s).2.length) := by
  cases d <;> rfl

private theorem nextPiece_link {x : Text} (found : afterDataLink? ('[' :: x ++ r) = some r) :
    nextPiece d quoting before '[' (x ++ r) = (.text ('[' :: x) imageOmitted (some .dataUrl), x.length) := by
  rw [List.cons_append] at found
  cases d <;> simp [nextPiece, found]

private theorem nextPiece_image {x : Text} (found : afterDataLink? (x ++ r) = some r) :
    nextPiece d quoting before '!' (x ++ r) = (.text ('!' :: x) imageOmitted (some .dataUrl), x.length) := by
  cases d <;> simp [nextPiece, found]

/-- The token that begins with `c` takes `n` characters of what follows. -/
def Begins (d : Dialect) (quoting : Bool) (before : Option Char) (c : Char) (s : Text) (p : Piece) (n : Nat) : Prop :=
  ∃ x r, s = x ++ r ∧ x.length = n ∧ Token d quoting before (c :: x) r p

variable {c : Char} {s x : Text} {n : Nat} {q : Piece}

theorem begins_one (token : Token d quoting before [c] s q) (read : (q, 0) = (p, n)) : Begins d quoting before c s p n := by
  obtain ⟨rfl, rfl⟩ := Prod.mk.inj read
  exact ⟨[], s, rfl, rfl, token⟩

theorem begins_verbatim (whole : s = x ++ r) (token : Token d quoting before (c :: x) r (.plain (c :: x)))
    (read : (Piece.plain (Text.upTo (c :: s) r), s.length - r.length) = (p, n)) : Begins d quoting before c s p n := by
  subst whole
  rw [Text.upTo_cons_append, length_sub] at read
  obtain ⟨rfl, rfl⟩ := Prod.mk.inj read
  exact ⟨x, r, rfl, rfl, token⟩

theorem begins_image (read : nextPiece d quoting before '!' s = (p, n)) : Begins d quoting before '!' s p n := by
  cases found : afterDataLink? s with
  | some after =>
    obtain ⟨x, rfl⟩ := afterDataLink?_sound found
    have whole : '[' :: (x ++ ')' :: after) = '[' :: (x ++ [')']) ++ after := by simp
    rw [whole] at found read ⊢
    obtain ⟨rfl, rfl⟩ := Prod.mk.inj (read.symm.trans (nextPiece_image found))
    exact ⟨_, after, rfl, rfl, .link (Or.inr rfl) found⟩
  | none =>
    refine begins_one (.bang found) (Eq.trans ?_ read)
    cases d <;> simp [nextPiece, found]

theorem begins_link (read : nextPiece d quoting before '[' s = (p, n)) : Begins d quoting before '[' s p n := by
  cases found : afterDataLink? ('[' :: s) with
  | some after =>
    obtain ⟨x, whole⟩ := afterDataLink?_sound found
    obtain rfl : s = x ++ [')'] ++ after := by simpa using whole
    rw [← List.cons_append] at found
    obtain ⟨rfl, rfl⟩ := Prod.mk.inj (read.symm.trans (nextPiece_link found))
    exact ⟨_, after, rfl, rfl, @Token.link _ _ _ [] ('[' :: (x ++ [')'])) _ (Or.inl rfl) found⟩
  | none =>
    refine begins_one (.bracket found) (Eq.trans ?_ read)
    cases d <;> simp [nextPiece, found]

theorem token_of_nextPiece (read : nextPiece d quoting before c s = (p, n)) :
    ∃ x r, s = x ++ r ∧ x.length = n ∧ Token d quoting before (c :: x) r p := by
  have whole := read
  unfold nextPiece at read
  simp only at read
  split at read
  next =>
    split at read
    next mark =>
      cases s with
      | nil => simp at mark
      | cons m s => exact begins_verbatim (x := [m]) rfl (.escape (by simpa using mark)) (by simpa using read)
    next alone => exact begins_one (.backslash (by simpa using alone)) read
  next =>
    rcases afterCode_cases s with ⟨a, r, shape, after, span, stop⟩ | ⟨m, r, positive, shape, after, stop, free⟩
    · obtain ⟨x, rfl⟩ := span.starts
      rw [after] at read
      exact begins_verbatim (List.cons.inj shape).2 (.code span stop) read
    · obtain ⟨m, rfl⟩ := Nat.exists_eq_succ_of_ne_zero (Nat.ne_of_gt positive)
      rw [after] at read
      exact begins_verbatim (x := List.replicate m '`') (List.cons.inj shape).2 (.ticks positive stop free) read
  next =>
    split at read
    next after found =>
      obtain ⟨a, shape, comment⟩ := afterComment?_sound found
      obtain ⟨x, rfl⟩ := comment.1
      exact begins_verbatim (List.cons.inj shape).2 (.comment rfl comment) read
    next none => exact begins_one (.brace rfl (Or.inl ⟨rfl, none⟩)) read
  next => exact begins_one (.brace rfl (Or.inr rfl)) read
  next =>
    obtain ⟨x, shape, token⟩ : ∃ x, s = x ++ (readAngle d s).2 ∧ Token d quoting before ('<' :: x) (readAngle d s).2 (readAngle d s).1 :=
      token_of_readAngle rfl
    obtain ⟨rfl, rfl⟩ := Prod.mk.inj read
    refine ⟨x, _, shape, ?_, token⟩
    have length := congrArg List.length shape
    rw [List.length_append] at length
    omega
  next =>
    split at read
    next kept => exact begins_one (.quote rfl kept) read
    next bare => exact begins_one (.greater rfl (by simpa [keepsGreater] using bare)) (by simpa using read)
  next slash tick angle opens closes greater =>
    by_cases bang : c = '!'
    · subst bang
      exact begins_image whole
    · by_cases bracket : c = '['
      · subst bracket
        exact begins_link whole
      · have ordinary : isSpecial d c = false := by
          simp only [isSpecial, Bool.or_eq_false_iff, Bool.and_eq_false_iff, beq_eq_false_iff_ne, ne_eq]
          refine ⟨⟨⟨⟨⟨slash, tick⟩, angle⟩, bang⟩, bracket⟩, ?_⟩
          cases d with
          | markdown => exact Or.inl (by simp)
          | mdx => exact Or.inr ⟨⟨fun same => opens same rfl, fun same => closes same rfl⟩, fun same => greater same rfl⟩
        simp only [beq_iff_eq, bang, if_false, bracket] at read
        exact begins_one (.plain ordinary) read

theorem read_angle (read : readAngle d (x ++ r) = (p, r)) :
    ∃ c y, '<' :: x = c :: y ∧ nextPiece d quoting before c (y ++ r) = (p, y.length) := by
  refine ⟨'<', x, rfl, ?_⟩
  rw [nextPiece_angle, read, length_sub]

/-- The reader gives the token back: reading a token's source before what follows it gives its piece. -/
theorem Token.read (token : Token d quoting before a r p) :
    ∃ c x, a = c :: x ∧ nextPiece d quoting before c (x ++ r) = (p, x.length) := by
  have plain : ∀ x : Text, (x ++ r).length - r.length = x.length := fun x => length_sub x r
  cases token with
  | @plain c _ ordinary =>
    refine ⟨c, [], rfl, ?_⟩
    simp only [isSpecial, Bool.or_eq_false_iff, Bool.and_eq_false_iff, beq_eq_false_iff_ne, ne_eq] at ordinary
    obtain ⟨⟨⟨⟨⟨slash, tick⟩, angle⟩, bang⟩, bracket⟩, mdx⟩ := ordinary
    unfold nextPiece
    split
    case h_7 => simp [bang, bracket]
    all_goals simp_all
  | backslash alone => exact ⟨_, [], rfl, by simp [nextPiece, alone]⟩
  | @escape m _ mark =>
    refine ⟨_, [m], rfl, ?_⟩
    have source := Text.upTo_append ['\\', m] r
    simp only [List.cons_append, List.nil_append] at source
    simp [nextPiece, mark, source]
  | code span stop =>
    obtain ⟨x, rfl⟩ := span.starts
    refine ⟨_, x, rfl, ?_⟩
    have after := span.reads r stop
    simp only [List.cons_append] at after
    simp [nextPiece, after]
  | @ticks n _ positive stop free =>
    obtain ⟨m, rfl⟩ := Nat.exists_eq_succ_of_ne_zero (Nat.ne_of_gt positive)
    refine ⟨_, List.replicate m '`', rfl, ?_⟩
    have after : afterCode ('`' :: (List.replicate m '`' ++ r)) = r := by
      have := afterCode_ticks (m + 1) stop
      rw [show afterRun? (m + 1) 0 r = none from free] at this
      exact this
    simp [nextPiece, after, List.replicate_succ]
  | comment mdx whole =>
    subst mdx
    obtain ⟨⟨x, rfl⟩, again⟩ := whole
    refine ⟨_, x ++ ['\x7d'], rfl, ?_⟩
    have after := again r
    simp only [List.cons_append] at after
    have source := Text.upTo_append ('\x7b' :: (x ++ ['\x7d'])) r
    simp only [List.cons_append] at source
    simp only [nextPiece, after, source, plain]
  | brace mdx bare =>
    subst mdx
    refine ⟨_, [], rfl, ?_⟩
    rcases bare with ⟨rfl, none⟩ | rfl
    · simp [nextPiece, none]
    · simp [nextPiece]
  | bang noLink => exact ⟨_, [], rfl, by cases d <;> simp [nextPiece, noLink]⟩
  | bracket noLink => exact ⟨_, [], rfl, by cases d <;> simp [nextPiece, noLink]⟩
  | @link bang a _ mark found =>
    obtain ⟨y, rfl⟩ := eq_of_afterDataLink? found
    rcases mark with rfl | rfl
    · exact ⟨'[', y ++ [')'], rfl, nextPiece_link found⟩
    · exact ⟨'!', '[' :: (y ++ [')']), rfl, nextPiece_image found⟩
  | quote mdx kept =>
    subst mdx
    exact ⟨_, [], rfl, by simp only [keepsGreater] at kept; simp [nextPiece, kept]⟩
  | greater mdx bare =>
    subst mdx
    exact ⟨_, [], rfl, by simp only [keepsGreater] at bare; simp [nextPiece, bare]⟩
  | less fails => exact ⟨_, [], rfl, by simp [nextPiece, fails, escapeAngle]⟩
  | angle markdown stop =>
    subst markdown
    exact read_angle (x := []) (readAngle_plain stop)
  | htmlComment mdx ends =>
    subst mdx
    exact read_angle (readAngle_comment ends)
  | keptComment markdown ends =>
    subst markdown
    exact read_angle (readAngle_comment ends)
  | declaration other letter ends => exact read_angle (readAngle_declaration other letter ends)
  | autolink mdx valid =>
    subst mdx
    exact read_angle (readAngle_autolink valid)
  | keptAutolink markdown valid =>
    subst markdown
    exact read_angle (readAngle_autolink valid)
  | tag spelled found noLink harmless =>
    obtain ⟨front, rfl⟩ := spelled.closes
    have piece := readAngle_tag (d := d) found noLink
    rw [tagPiece, if_neg (by simp [harmless])] at piece
    exact read_angle piece
  | dataImage spelled found noLink harmful =>
    obtain ⟨front, rfl⟩ := spelled.closes
    have piece := readAngle_tag (d := d) found noLink
    rw [tagPiece, if_pos harmful] at piece
    exact read_angle piece

end NotebookPages.Markup
