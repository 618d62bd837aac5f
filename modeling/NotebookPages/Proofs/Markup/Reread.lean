import NotebookPages.Proofs.Markup.Welding

/-! A written line is read again piece by piece. Two things can go wrong: a bracket that began no link begins one
once the text behind it is written, and a tag is written as an autolink would be. Otherwise every piece of the
second reading stands for itself. -/

namespace NotebookPages

/-- The tag is written as an autolink would be. -/
def Tag.isLinkLike (d : Dialect) (t : Tag) : Bool := (Markup.autolink? (t.render d)).isSome

namespace Markup

/-- The piece is written as its source, and nothing is wrong with it. -/
def Piece.Literal (d : Dialect) : Piece → Prop
  | .text source written problem => written = source ∧ problem = none
  | .tag source t => t.render d = source
  | _ => False

/-- A bracket among the pieces begins a link to a data URL once the pieces behind it are written. -/
def reopens (d : Dialect) : List Piece → Bool
  | [] => false
  | p :: rest =>
    (p == .plain ['['] && (afterDataLink? ('[' :: Piece.weld d (some '[') false true rest)).isSome) || reopens d rest

/-- How the pieces `qs` of a written line follow from the pieces `ks` it was written for. -/
structure Reread (d : Dialect) (ks qs : List Piece) : Prop where
  reopened : reopens d ks = true → ∃ p ∈ qs, p.problem? = some .dataUrl
  tags : reopens d ks = false →
    qs.filterMap Piece.tag? = ((ks.filterMap Piece.tag?).filter (!·.isLinkLike d)).map (Tag.normal d)
  literal : reopens d ks = false → (∀ t ∈ ks.filterMap Piece.tag?, t.isLinkLike d = false) → ∀ p ∈ qs, p.Literal d

def Flat (d : Dialect) (ps : List Piece) : Prop := ∀ p ∈ ps, p.Literal d ∧ p.tag? = none

variable {d : Dialect} {q q₂ : Bool} {b b₂ : Option Char} {a r s v w after : Text} {p : Piece} {ps qs ks front : List Piece}

theorem flat_nil : Flat d [] := by simp [Flat]

theorem flat_plain (a : Text) : Flat d [.plain a] := by simp [Flat, Piece.plain, Piece.Literal, Piece.tag?]

theorem flat_map (x : Text) : Flat d (x.map fun c => .plain [c]) := by
  intro p member
  obtain ⟨c, -, rfl⟩ := List.mem_map.mp member
  exact flat_plain [c] _ (by simp)

theorem Flat.append (one : Flat d ps) (other : Flat d qs) : Flat d (ps ++ qs) := by
  intro p member
  rcases List.mem_append.mp member with member | member
  · exact one p member
  · exact other p member

theorem Flat.tags (flat : Flat d ps) : ps.filterMap Piece.tag? = [] := by
  rw [List.filterMap_eq_nil_iff]
  intro p member
  exact (flat p member).2

theorem Reread.nil : Reread d [] [] := by
  constructor <;> simp [reopens]

theorem reopens_cons (other : p ≠ .plain ['[']) : reopens d (p :: ks) = reopens d ks := by
  have differs : (p == Piece.plain ['[']) = false := by simpa using other
  rw [reopens, differs, Bool.false_and, Bool.false_or]

theorem Reread.text (flat : Flat d front) (untagged : p.tag? = none) (same : reopens d (p :: ks) = reopens d ks)
    (rest : Reread d ks qs) : Reread d (p :: ks) (front ++ qs) := by
  have kept : (p :: ks).filterMap Piece.tag? = ks.filterMap Piece.tag? := List.filterMap_cons_none untagged
  refine ⟨fun again => ?_, fun once => ?_, fun once distinct p member => ?_⟩
  · obtain ⟨p, member, problem⟩ := rest.reopened (same ▸ again)
    exact ⟨p, List.mem_append_right _ member, problem⟩
  · rw [List.filterMap_append, flat.tags, kept]
    exact rest.tags (same ▸ once)
  · rcases List.mem_append.mp member with member | member
    · exact (flat p member).1
    · exact rest.literal (same ▸ once) (kept ▸ distinct) p member

theorem Reread.link (again : reopens d ks = true) (found : ∃ p ∈ qs, p.problem? = some .dataUrl) : Reread d ks qs :=
  ⟨fun _ => found, fun once => by simp [again] at once, fun once => by simp [again] at once⟩

theorem Reread.tag {t : Tag} (plain : t.isLinkLike d = false) (rest : Reread d ks qs) :
    Reread d (.tag a t :: ks) (.tag (t.render d) (t.normal d) :: qs) := by
  have same : reopens d (.tag a t :: ks) = reopens d ks := reopens_cons (by simp [Piece.plain])
  refine ⟨fun again => ?_, fun once => ?_, fun once distinct p member => ?_⟩
  · obtain ⟨p, member, problem⟩ := rest.reopened (same ▸ again)
    exact ⟨p, List.mem_cons_of_mem _ member, problem⟩
  · have later := rest.tags (same ▸ once)
    simp [Piece.tag?, plain, later]
  · rcases List.mem_cons.mp member with rfl | member
    · exact Tag.render_normal d t
    · refine rest.literal (same ▸ once) (fun t inside => distinct t ?_) p member
      rw [List.filterMap_cons_some (show Piece.tag? (.tag a _) = some _ from rfl)]
      exact List.mem_cons_of_mem _ inside

theorem Reread.linkLike {t : Tag} (link : t.isLinkLike d = true) (untagged : p.tag? = none) (rest : Reread d ks qs) :
    Reread d (.tag a t :: ks) (p :: qs) := by
  have same : reopens d (.tag a t :: ks) = reopens d ks := reopens_cons (by simp [Piece.plain])
  refine ⟨fun again => ?_, fun once => ?_, fun _ distinct => ?_⟩
  · obtain ⟨p, member, problem⟩ := rest.reopened (same ▸ again)
    exact ⟨p, List.mem_cons_of_mem _ member, problem⟩
  · rw [List.filterMap_cons_none untagged, rest.tags (same ▸ once)]
    simp [Piece.tag?, link]
  · have plain := distinct t (by simp [Piece.tag?])
    rw [link] at plain
    cases plain

theorem Reread.removed (hidden : p.shown? d = none) (rest : Reread d ks qs) : Reread d (p :: ks) qs := by
  cases p with
  | text | tag => cases hidden
  | dropped | stray =>
    rw [← List.nil_append qs]
    exact .text flat_nil rfl (reopens_cons (by simp [Piece.plain])) rest

theorem Reading.url {x : Text} (chars : ∀ c ∈ x, isUrlChar c = true) (stop : after.head? ≠ some '[') :
    Reading d after q b x (x.map fun c => .plain [c]) := by
  induction x generalizing q b with
  | nil => exact .done
  | cons c x ih =>
    have later : ∀ e ∈ x, isUrlChar e = true := fun e inside => chars e (List.mem_cons_of_mem _ inside)
    refine .more (a := [c]) ?_ (ih later)
    by_cases bang : c = '!'
    · subst bang
      have noLink : afterDataLink? (x ++ after) = none := by
        cases found : afterDataLink? (x ++ after) with
        | none => rfl
        | some rest =>
          obtain ⟨y, shape⟩ := afterDataLink?_sound found
          cases x with
          | nil => exact absurd (by rw [List.nil_append] at shape; rw [shape]; rfl) stop
          | cons e x =>
            obtain rfl := (List.cons.inj shape).1
            exact absurd (later '[' (by simp)) (by decide)
      exact .bang noLink
    · refine .plain ?_
      have char := chars c (by simp)
      simp only [isUrlChar, String.reduceToList, Bool.and_eq_true, Bool.not_eq_true', List.contains_eq_mem, List.mem_cons,
        List.not_mem_nil, or_false, decide_eq_false_iff_not, not_or] at char
      simp [isSpecial, char, bang]

theorem cut_label {x : Text} (closer : ']' ∉ x) (y : Text) : Text.cut [']', '('] (x ++ (']' :: '(' :: y)) = some (x, y) := by
  induction x with
  | nil => simp [Text.cut, List.isPrefixOf?]
  | cons c x ih =>
    have differs : c ≠ ']' := fun same => closer (by simp [same])
    have later := ih fun inside => closer (List.mem_cons_of_mem _ inside)
    have miss : (']' == c) = false := by simpa using Ne.symm differs
    simp [Text.cut, List.isPrefixOf?, miss, later]

theorem afterDataLink?_of_label {x y : Text} (closer : ']' ∉ x) (data : isDataUrl y = false) :
    afterDataLink? ('[' :: (x ++ (']' :: '(' :: y))) = none := by
  have opened := cut_label closer y
  unfold afterDataLink?
  simp only [String.reduceToList]
  simp [opened, data]

theorem not_isDataUrl {url : Text} (valid : IsUrl url) (w : Text) : isDataUrl (url ++ w) = false := by
  obtain ⟨-, scheme, member, starts, -⟩ := valid
  obtain ⟨y, rfl⟩ := Text.startsWith_iff.mp starts
  simp only [autolinkSchemes, List.mem_cons, List.not_mem_nil, or_false] at member
  rcases member with rfl | rfl | rfl <;> simp [isDataUrl, Text.sameLetters] <;> decide

/-- An autolink in the form of a link is none to a data URL. -/
theorem afterDataLink?_autolink {url : Text} (valid : IsUrl url) (w : Text) :
    afterDataLink? ('[' :: (url ++ (']' :: '(' :: (url ++ [')'])) ++ w)) = none := by
  have closer : ']' ∉ url := not_isUrlChar (by decide) valid.1
  rw [List.append_assoc]
  simp only [List.cons_append, List.append_assoc, List.nil_append]
  exact afterDataLink?_of_label closer (not_isDataUrl valid _)

/-- Before `w` the chunk is read as texts that stand for themselves. -/
def ReadsFlat (d : Dialect) (w : Text) (q : Bool) (b : Option Char) (v : Text) : Prop :=
  ∃ front, Reading d w q b v front ∧ Flat d front

theorem ReadsFlat.single (token : Token d q b a w (.plain a)) : ReadsFlat d w q b a :=
  ⟨[.plain a], .single token, flat_plain a⟩

theorem ReadsFlat.ordinary (plain : ∀ c ∈ v, isSpecial d c = false) : ReadsFlat d w q b v :=
  ⟨_, .ordinary plain, flat_map v⟩

theorem ReadsFlat.append (one : ReadsFlat d (r ++ w) q b a) (other : ∀ {q b}, ReadsFlat d w q b r) : ReadsFlat d w q b (a ++ r) := by
  obtain ⟨front, first, flat⟩ := one
  obtain ⟨back, second, flat'⟩ := other
  exact ⟨front ++ back, first.append second, flat.append flat'⟩

theorem readsFlat_imageOmitted : ReadsFlat d w q b imageOmitted := .ordinary (ordinary_of_all (by cases d <;> decide))

/-- A link is read as it stands where its label and its target are. -/
theorem readsFlat_link {label target : Text} (closer : ']' ∉ label) (harmless : isDataUrl (target ++ ')' :: w) = false)
    (first : ∀ {r q b}, r.head? ≠ some '[' → ReadsFlat d r q b label)
    (second : ∀ {r q b}, r.head? ≠ some '[' → ReadsFlat d r q b target) :
    ReadsFlat d w q b ('[' :: (label ++ (']' :: '(' :: (target ++ [')'])))) := by
  have noLink : afterDataLink? ('[' :: (label ++ (']' :: '(' :: (target ++ [')'])) ++ w)) = none := by
    simp only [List.append_assoc, List.cons_append, List.nil_append]
    exact afterDataLink?_of_label closer harmless
  have opening : ReadsFlat d (label ++ (']' :: '(' :: (target ++ [')'])) ++ w) q b ['['] := .single (.bracket noLink)
  have closing : ∀ {q b}, ReadsFlat d w q b [')'] := .ordinary (ordinary_of_all (by cases d <;> decide))
  have middle : ∀ {x : Text} {q b}, ReadsFlat d x q b [']', '('] := .ordinary (ordinary_of_all (by cases d <;> decide))
  have back : ∀ {q b}, ReadsFlat d w q b (target ++ [')']) := (second (by simp)).append closing
  have rest : ∀ {q b}, ReadsFlat d w q b ([']', '('] ++ (target ++ [')'])) := middle.append back
  exact opening.append ((first (by simp)).append rest)

theorem readsFlat_autolink {url : Text} (valid : IsUrl url) :
    ReadsFlat d w q b ('[' :: (url ++ (']' :: '(' :: (url ++ [')'])))) := by
  have closer : ']' ∉ url := not_isUrlChar (by decide) valid.1
  have urls : ∀ {r : Text} {q b}, r.head? ≠ some '[' → ReadsFlat d r q b url := fun other => ⟨_, .url valid.1 other, flat_map url⟩
  exact readsFlat_link closer (not_isDataUrl valid _) urls urls

private theorem plain_of_blank {c : Char} (blank : Text.isBlank c = true) : Text.isLetter c = false ∧ c ≠ '/' ∧ c ≠ '!' := by
  refine ⟨?_, ?_, ?_⟩
  · cases letter : Text.isLetter c with
    | false => rfl
    | true => simp [Text.not_isBlank_of_isLetter letter] at blank
  · rintro rfl
    exact absurd blank (by decide)
  · rintro rfl
    exact absurd blank (by decide)

private theorem plain_of_mark {c : Char} (mark : isWrittenMark c = true) : Text.isLetter c = false ∧ c ≠ '/' ∧ c ≠ '!' := by
  simp only [isWrittenMark, Bool.or_eq_true, beq_iff_eq] at mark
  rcases mark with ((((rfl | rfl) | rfl) | rfl) | rfl) | rfl <;> decide

/-- What is written for a text stands for itself, provided that what follows begins as before. Brackets and
exclamation marks also depend on how it goes on. -/
theorem Token.readsFlat {problem : Option Problem} (token : Token d q b a r (.text a v problem))
    (opener : a ≠ ['['] ∧ a ≠ ['!']) (start : ∀ l, v.getLast? = some l → Text.isBlank l = false → SameStart r w)
    (free : ∀ n, 0 < n → Free n r → Free n w) (quotes : q = true → q₂ = true)
    (letters : b.any Text.isLetter = true → b₂ = b) : ReadsFlat d w q₂ b₂ v := by
  have entity : ∀ c ∈ ['&', 'g', 't', ';'] ++ ['&', 'l', 't', ';'], isSpecial d c = false := ordinary_of_all (by cases d <;> decide)
  cases token with
  | plain ordinary => exact .single (.plain ordinary)
  | backslash alone => exact .single (.backslash ((start '\\' rfl (by decide)).plain alone))
  | escape mark => exact .single (.escape mark)
  | code span stop => exact .single (.code span ((start '`' span.stops (by decide)).unticked stop))
  | @ticks n _ positive stop absent =>
    have last : (List.replicate n '`').getLast? = some '`' := by
      rw [List.getLast?_replicate, if_neg (Nat.ne_of_gt positive)]
    exact .single (.ticks positive ((start '`' last (by decide)).unticked stop) (free n positive absent))
  | comment mdx whole => exact .single (.comment mdx whole)
  | @brace c _ mdx bare =>
    have mark : Text.isPunctuation c = true := by rcases bare with ⟨rfl, -⟩ | rfl <;> decide
    exact .single (.escape mark)
  | bang => exact absurd rfl opener.2
  | bracket => exact absurd rfl opener.1
  | link => exact readsFlat_imageOmitted
  | quote mdx kept =>
    refine .single (.quote mdx ?_)
    simp only [keepsGreater, Bool.or_eq_true] at kept ⊢
    rcases kept with (quoting | letter) | letter
    · exact Or.inl (Or.inl (quotes quoting))
    · exact Or.inl (Or.inr (by rwa [letters letter]))
    · exact Or.inr ((start '>' rfl (by decide)).letter letter)
  | greater => exact .ordinary fun c inside => entity c (List.mem_append_left _ inside)
  | less => exact .ordinary fun c inside => entity c (List.mem_append_right _ inside)
  | angle markdown stop =>
    refine .single (.angle markdown fun c first => ?_)
    rcases start '<' rfl (by decide) with same | ⟨-, marks⟩
    · exact stop c (same ▸ first)
    · rcases marks c first with blank | mark
      · exact plain_of_blank blank
      · exact plain_of_mark mark
  | @htmlComment body _ mdx ends =>
    subst mdx
    exact .single (.comment rfl (isComment_comment (Text.trim body)))
  | keptComment markdown ends => exact .single (.keptComment markdown ends)
  | autolink mdx valid => exact readsFlat_autolink valid
  | keptAutolink markdown valid => exact .single (.keptAutolink markdown valid)
  | dataImage => exact readsFlat_imageOmitted

private theorem not_all_lead {c : Char} {x : Text} (other : isLead c = false) : (q && (c :: x).all isLead) = false := by
  rw [List.all_cons, other, Bool.false_and, Bool.and_false]

theorem Token.rewritten_last {problem : Option Problem} (token : Token d q b a r (.text a v problem)) :
    a = v ∨ a.getLast?.any Text.isLetter = false := by
  cases token.shape with
  | kept => exact Or.inl rfl
  | removed hidden => cases hidden
  | rewritten replaces =>
    obtain ⟨c, same, boundary⟩ := replaces.stops
    rw [same, Option.any_some, not_letter_of_isBoundary boundary]
    exact Or.inr rfl

theorem Token.rewritten_lead {problem : Option Problem} (token : Token d q b a r (.text a v problem)) :
    a = v ∨ (q && a.all isLead) = false := by
  cases token with
  | plain | backslash | escape | code | ticks | comment | bang | bracket | quote | angle | keptComment | keptAutolink =>
    exact Or.inl rfl
  | brace mdx bare => rcases bare with ⟨rfl, -⟩ | rfl <;> exact Or.inr (not_all_lead (by decide))
  | link mark found =>
    obtain ⟨y, rfl⟩ := eq_of_afterDataLink? found
    rcases mark with rfl | rfl <;> exact Or.inr (not_all_lead (by decide))
  | greater mdx bare =>
    simp only [keepsGreater, Bool.or_eq_false_iff] at bare
    rw [bare.1.1, Bool.false_and]
    exact Or.inr rfl
  | less | htmlComment | autolink => exact Or.inr (not_all_lead (by decide))
  | dataImage spelled =>
    obtain ⟨front, rfl⟩ := spelled.closes
    exact Or.inr (not_all_lead (by decide))

theorem Token.written_ne_nil {problem : Option Problem} (token : Token d q b a r (.text a v problem)) : v ≠ [] := by
  cases token.shape with
  | kept => exact token.ne_nil
  | removed hidden => cases hidden
  | rewritten replaces =>
    obtain ⟨c, x, rfl, -⟩ := replaces.written
    exact List.cons_ne_nil c x

/-- A text that begins as a link does is one, or stands for itself and begins none. -/
theorem Token.opener {problem : Option Problem} (token : Token d q b a r (.text a v problem)) :
    a ≠ ['['] ∧ a ≠ ['!'] ∨ (a = ['['] ∧ v = ['['] ∧ problem = none ∧ afterDataLink? ('[' :: r) = none) ∨
      (a = ['!'] ∧ v = ['!'] ∧ problem = none ∧ afterDataLink? r = none) := by
  cases token with
  | bang noLink => exact Or.inr (Or.inr ⟨rfl, rfl, rfl, noLink⟩)
  | bracket noLink => exact Or.inr (Or.inl ⟨rfl, rfl, rfl, noLink⟩)
  | @plain c _ ordinary =>
    simp only [isSpecial, Bool.or_eq_false_iff, beq_eq_false_iff_ne, ne_eq] at ordinary
    exact Or.inl ⟨fun same => ordinary.1.2 (List.cons.inj same).1, fun same => ordinary.1.1.2 (List.cons.inj same).1⟩
  | code span =>
    obtain ⟨x, rfl⟩ := span.starts
    exact Or.inl (by simp)
  | @ticks n _ positive =>
    obtain ⟨n, rfl⟩ := Nat.exists_eq_succ_of_ne_zero (Nat.ne_of_gt positive)
    exact Or.inl (by simp [List.replicate_succ])
  | comment mdx whole =>
    obtain ⟨⟨x, rfl⟩, -⟩ := whole
    exact Or.inl (by simp)
  | brace mdx bare => rcases bare with ⟨rfl, -⟩ | rfl <;> exact Or.inl (by simp)
  | link mark found =>
    obtain ⟨y, rfl⟩ := eq_of_afterDataLink? found
    rcases mark with rfl | rfl <;> exact Or.inl (by simp)
  | dataImage spelled =>
    obtain ⟨front, rfl⟩ := spelled.closes
    exact Or.inl (by simp)
  | backslash | escape | quote | greater | less | angle | htmlComment | keptComment | autolink | keptAutolink =>
    exact Or.inl (by simp)

/-- How the second reading of a line stands to the first: it is at least as near to the start of the line, and a
letter before it is still there. -/
structure Abreast (q q₂ : Bool) (b last : Option Char) (gap : Bool) : Prop where
  quotes : q = true → q₂ = true
  letters : b.any Text.isLetter = true → last = b ∧ gap = false

open Piece

variable {last : Option Char} {gap afterText : Bool} {flags : List Bool} {problem : Option Problem}

theorem abreast_start : Abreast true true none none false := ⟨id, fun letter => Bool.noConfusion letter⟩

theorem Token.abreast_text (token : Token d q b a r (.text a v problem)) (abreast : Abreast q q₂ b last gap) :
    Abreast (q && a.all isLead) (q₂ && v.all isLead) (a.getLast?.or b) (v.getLast?.or last) false := by
  obtain ⟨e, ends⟩ := Option.ne_none_iff_exists'.mp (mt List.getLast?_eq_none_iff.mp token.ne_nil)
  refine ⟨fun quoting => ?_, fun letter => ?_⟩
  · rcases token.rewritten_lead with rfl | other
    · rw [Bool.and_eq_true] at quoting ⊢
      exact ⟨abreast.quotes quoting.1, quoting.2⟩
    · rw [other] at quoting
      cases quoting
  · rcases token.rewritten_last with rfl | other
    · simp [ends]
    · simp [ends] at other letter
      rw [letter] at other
      cases other

theorem abreast_markup {x : Text} : Abreast (q && ('<' :: (x ++ ['>'])).all isLead) q₂ (('<' :: (x ++ ['>'])).getLast?.or b) last gap := by
  refine ⟨fun quoting => ?_, fun letter => ?_⟩
  · rw [not_all_lead (by decide)] at quoting
    cases quoting
  · rw [getLast?_closed, Option.some_or, Option.any_some] at letter
    exact absurd letter (by decide)

theorem readsFlat_space : ReadsFlat d w q b (space last gap afterText v) := by
  rcases space_cases last gap afterText v with none | ⟨-, blank⟩
  · exact ⟨[], none ▸ .done, flat_nil⟩
  · exact blank ▸ .single (.plain (by cases d <;> decide))

theorem read_spaced (abreast : Abreast q q₂ b last gap)
    (chunk : ∀ b₂, (b.any Text.isLetter = true → b₂ = b) → ReadsFlat d w q₂ b₂ v) :
    ReadsFlat d w q₂ last (space last gap afterText v ++ v) := by
  rcases space_cases last gap afterText v with none | ⟨rfl, blank⟩
  · rw [none]
    exact chunk last fun letter => (abreast.letters letter).1
  · rw [blank]
    obtain ⟨front, reading, flat⟩ := chunk (some ' ') fun letter => Bool.noConfusion (abreast.letters letter).2
    refine ⟨.plain [' '] :: front, .more (a := [' ']) (.plain (by cases d <;> decide)) ?_, ?_⟩
    · simpa [isLead, Text.isBlank] using reading
    · exact (flat_plain [' ']).append flat

theorem reread_text (token : Token d q b a r (.text a v problem)) (abreast : Abreast q q₂ b last gap)
    (same : reopens d (.text a v problem :: ks) = reopens d ks)
    (chunk : ∀ b₂, (b.any Text.isLetter = true → b₂ = b) → ReadsFlat d (weld d (v.getLast?.or last) false true ks) q₂ b₂ v)
    (rest : Reading d [] (q₂ && v.all isLead) (v.getLast?.or last) (weld d (v.getLast?.or last) false true ks) qs)
    (again : Reread d ks qs) :
    ∃ qs, Reading d [] q₂ last (weld d last gap afterText (.text a v problem :: ks)) qs ∧ Reread d (.text a v problem :: ks) qs := by
  have spaced : ReadsFlat d _ q₂ last (space last gap afterText v ++ v) := read_spaced abreast chunk
  obtain ⟨front, reading, flat⟩ := spaced
  refine ⟨front ++ qs, ?_, .text flat rfl same again⟩
  rw [weld_text, ← List.append_assoc]
  refine .append (by rwa [List.append_nil]) ?_
  have ends : (space last gap afterText v ++ v).getLast?.or last = v.getLast?.or last := by
    obtain ⟨e, last⟩ := Option.ne_none_iff_exists'.mp (mt List.getLast?_eq_none_iff.mp token.written_ne_nil)
    simp [last]
  have lead : (space last gap afterText v ++ v).all isLead = v.all isLead := by
    rcases space_cases last gap afterText v with none | ⟨-, blank⟩
    · rw [none, List.nil_append]
    · simp [blank, isLead, Text.isBlank]
  rwa [ends, lead]

theorem reading_link {bang : Text} (mark : bang = [] ∨ bang = ['!']) (found : (afterDataLink? s).isSome = true) :
    ∃ qs, Reading d [] q b (bang ++ s) qs ∧ ∃ p ∈ qs, p.problem? = some .dataUrl := by
  obtain ⟨r, found⟩ := Option.isSome_iff_exists.mp found
  obtain ⟨x, shape⟩ := afterDataLink?_sound found
  obtain rfl : s = '[' :: (x ++ [')']) ++ r := by simpa using shape
  rw [← List.append_assoc]
  refine ⟨_, .more (by rw [List.append_nil]; exact .link mark found) (reading_scan d _ _ r), _, List.mem_cons_self, rfl⟩

theorem reread_link {bang : Text} (c : Text) (mark : bang = [] ∨ bang = ['!']) (found : (afterDataLink? s).isSome = true)
    (again : reopens d ks = true) :
    ∃ qs, Reading d [] q b (space last gap afterText c ++ (bang ++ s)) qs ∧ Reread d ks qs := by
  obtain ⟨front, reading, -⟩ : ReadsFlat d (bang ++ s) q b (space last gap afterText c) := readsFlat_space
  obtain ⟨qs, link, p, member, problem⟩ := reading_link mark found
  refine ⟨front ++ qs, .append (by rwa [List.append_nil]) link, .link again ⟨p, List.mem_append_right _ member, problem⟩⟩

/-- Only a bracket that is kept begins a written text that is a link to a data URL. -/
theorem reopens_of_link {l : Char} (solid : Text.isBlank l = false) (reading : Reading d [] q b s ps)
    (noLink : afterDataLink? s = none) (found : (afterDataLink? (weld d (some l) false true (settle flags ps))).isSome = true) :
    reopens d (settle flags ps) = true := by
  have first : (weld d (some l) false true (settle flags ps)).head? = some '[' := by
    obtain ⟨r, found⟩ := Option.isSome_iff_exists.mp found
    obtain ⟨x, shape⟩ := afterDataLink?_sound found
    rw [shape]
    rfl
  have direct : ∀ {v w : Text}, space (some l) false true v ++ (v ++ w) = v ++ w := by simp [space]
  cases reading with
  | done => cases first
  | @more _ _ a r p ps token rest =>
    rw [List.append_nil] at token
    have removed : ∀ flags', (weld d (some l) true true (settle flags' ps)).head? ≠ some '[' := by
      intro flags' first
      rcases head?_weld_gap solid rest flags' '[' first with blank | angle
      · exact absurd blank (by decide)
      · exact absurd angle (by decide)
    have chunk : ∀ {v problem c x}, p = .text a v problem → v = c :: x → c = '[' := by
      rintro v problem c x rfl rfl
      rw [settle_text, weld_text, direct] at first
      exact Option.some.inj first
    cases token with
    | bracket =>
      rw [settle_plain, weld_plain, direct] at found
      rw [settle_plain, reopens, Bool.or_eq_true]
      exact Or.inl (by simpa using found)
    | bang | backslash | escape | quote | greater | less | angle | htmlComment | keptComment | keptAutolink =>
      exact absurd (chunk rfl rfl) (by decide)
    | plain ordinary =>
      obtain rfl := chunk rfl rfl
      cases d <;> exact absurd ordinary (by decide)
    | code span =>
      obtain ⟨x, rfl⟩ := span.starts
      exact absurd (chunk rfl rfl) (by decide)
    | @ticks n _ positive =>
      obtain ⟨n, rfl⟩ := Nat.exists_eq_succ_of_ne_zero (Nat.ne_of_gt positive)
      exact absurd (chunk rfl rfl) (by decide)
    | comment mdx whole =>
      obtain ⟨⟨x, rfl⟩, -⟩ := whole
      exact absurd (chunk rfl rfl) (by decide)
    | brace => exact absurd (chunk rfl rfl) (by decide)
    | link mark link =>
      rcases mark with rfl | rfl
      · rw [List.nil_append, link] at noLink
        cases noLink
      · exact absurd (chunk rfl rfl) (by decide)
    | dataImage => exact absurd (chunk rfl rfl) (by decide)
    | autolink mdx valid =>
      rw [settle_text, weld_text, direct, List.cons_append, afterDataLink?_autolink valid] at found
      cases found
    | declaration =>
      rw [settle_dropped, weld_removed rfl] at first
      exact absurd first (removed flags)
    | @tag _ _ t spelled =>
      rcases @settle_tag a ps flags t with same | same
      · obtain ⟨x, written⟩ := Tag.render_eq_cons spelled.wellFormed d
        rw [same, weld_tag, written] at first
        exact absurd (Option.some.inj first) (by decide)
      · rw [same, weld_removed rfl] at first
        exact absurd first (removed flags.tail)

theorem reread_tag {t : Tag} (spelled : Tag.Spelling a t) (harmless : t.isDataImage = false)
    (rest : Reading d [] (q && (t.render d).all isLead) ((t.render d).getLast?.or b) w qs) (again : Reread d ks qs) :
    ∃ qs, Reading d [] q b (t.render d ++ w) qs ∧ Reread d (.tag a t :: ks) qs := by
  have valid := spelled.wellFormed
  cases link : t.isLinkLike d with
  | false =>
    have noLink : autolink? (t.render d ++ w) = none := by
      rw [autolink?_render_append valid, Option.map_eq_none_iff]
      simpa [Tag.isLinkLike] using link
    have found := Tag.read?_render valid d w
    obtain ⟨x, whole, spelled⟩ := Tag.read?_sound found
    obtain rfl := List.append_cancel_right whole
    refine ⟨_, .more ?_ rest, .tag link again⟩
    rw [List.append_nil]
    exact .tag spelled found noLink (Tag.isDataImage_normal d harmless)
  | true =>
    obtain ⟨⟨url, rest'⟩, found⟩ := Option.isSome_iff_exists.mp link
    have isUrl := (autolink?_eq_some_iff.mp found).2
    obtain ⟨-, shape, -⟩ := autolink?_render valid (r := []) (by rw [List.append_nil]; exact found)
    rw [shape] at rest ⊢
    cases d with
    | mdx => exact ⟨_, .more (.autolink rfl isUrl) rest, .linkLike link rfl again⟩
    | markdown => exact ⟨_, .more (.keptAutolink rfl isUrl) rest, .linkLike link rfl again⟩

/-- A written line is read again. -/
theorem reread (reading : Reading d [] q b s ps) (abreast : Abreast q q₂ b last gap) :
    ∃ qs, Reading d [] q₂ last (weld d last gap afterText (settle flags ps)) qs ∧ Reread d (settle flags ps) qs := by
  induction reading generalizing q₂ last gap afterText flags with
  | done => exact ⟨[], .done, .nil⟩
  | @more q b a r p ps token rest ih =>
    rw [List.append_nil] at token
    cases p with
    | text source v problem =>
      obtain rfl : source = a := token.source_eq
      obtain ⟨qs, reading, again⟩ := @ih _ _ _ true flags (token.abreast_text abreast)
      have start : ∀ l, v.getLast? = some l → Text.isBlank l = false →
          SameStart r (weld d (v.getLast?.or last) false true (settle flags ps)) := by
        intro l ends solid
        rw [ends]
        exact sameStart_weld solid rest flags
      have free : ∀ n, 0 < n → Free n r → Free n (weld d (v.getLast?.or last) false true (settle flags ps)) :=
        fun n positive free => free_weld positive rest (by simp) free
      rw [settle_text]
      rcases token.opener with other | ⟨rfl, rfl, rfl, noLink⟩ | ⟨rfl, rfl, rfl, noLink⟩
      · have differs : Piece.text source v problem ≠ .plain ['['] := fun same => other.1 (congrArg Piece.source same)
        exact reread_text token abreast (reopens_cons differs)
          (fun b₂ letters => token.readsFlat other start free abreast.quotes letters) reading again
      · cases found : afterDataLink? ('[' :: weld d (some '[') false true (settle flags ps)) with
        | none =>
          have same : reopens d (.plain ['['] :: settle flags ps) = reopens d (settle flags ps) := by
            rw [reopens, found, Option.isSome_none, Bool.and_false, Bool.false_or]
          exact reread_text token abreast same (fun _ _ => .single (.bracket found)) reading again
        | some after =>
          have opens : reopens d (.plain ['['] :: settle flags ps) = true := by simp [reopens, found]
          have link := Option.isSome_of_eq_some found
          obtain ⟨qs, reading, again⟩ := reread_link ['['] (Or.inl rfl) link opens
          exact ⟨qs, by rw [weld_text]; exact reading, again⟩
      · cases found : afterDataLink? (weld d (some '!') false true (settle flags ps)) with
        | none =>
          exact reread_text token abreast (reopens_cons (by simp [Piece.plain])) (fun _ _ => .single (.bang found)) reading again
        | some after =>
          have link := Option.isSome_of_eq_some found
          have opens : reopens d (settle flags ps) = true := reopens_of_link (by decide) rest noLink link
          have opens' : reopens d (.plain ['!'] :: settle flags ps) = true := by
            rw [reopens, opens, Bool.or_true]
          obtain ⟨qs, reading, again⟩ := reread_link ['!'] (Or.inr rfl) link opens'
          exact ⟨qs, by rw [weld_text]; exact reading, again⟩
    | tag source t =>
      obtain rfl : source = a := token.source_eq
      cases token with
      | tag spelled found noLink harmless =>
        obtain ⟨x, closed⟩ := spelled.closes
        obtain ⟨y, written⟩ := Tag.render_eq_cons spelled.wellFormed d
        have behind : ∀ {q₂ last gap}, Abreast (q && source.all isLead) q₂ (source.getLast?.or b) last gap := by
          rw [closed]
          exact abreast_markup
        rcases @settle_tag source ps flags t with same | same
        · obtain ⟨qs, reading, again⟩ := ih behind
          rw [same, weld_tag]
          exact reread_tag spelled harmless reading again
        · obtain ⟨qs, reading, again⟩ := ih behind
          rw [same, weld_removed rfl]
          exact ⟨qs, reading, again.removed rfl⟩
    | dropped source =>
      cases token with
      | @declaration body =>
        obtain ⟨qs, reading, again⟩ := ih (@abreast_markup _ _ _ _ _ ('!' :: body))
        rw [settle_dropped, weld_removed rfl]
        exact ⟨qs, reading, again.removed rfl⟩
    | stray source => cases token

end Markup
end NotebookPages
