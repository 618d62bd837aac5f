import NotebookPages.Proofs.Markup.SecondPass

/-! Which written lines a second pass leaves alone. Stable lines are read as they stand, and where nothing is lost in
the second pass every line was stable. -/

namespace NotebookPages.Markup

/-- The line is written so that it can be read as it stands: no bracket begins a link anew, no tag looks like an
autolink, and the written line is within the limit. -/
def Line.Stable (rules : Rules) : Line → Prop
  | .prose source pieces =>
    reopens rules.dialect pieces = false ∧ (∀ t ∈ pieces.filterMap Piece.tag?, t.isLinkLike rules.dialect = false) ∧
      ((Line.prose source pieces).render rules.dialect).length ≤ rules.maxLine
  | _ => True

instance (rules : Rules) (l : Line) : Decidable (l.Stable rules) :=
  match l with
  | .prose _ _ => inferInstanceAs (Decidable (_ ∧ _ ∧ _))
  | .fenced _ => .isTrue trivial
  | .replaced _ => .isTrue trivial

variable {rules : Rules} {held : Option Fence} {source t : Text} {l : Line} {sources : List Text} {ls : List Line}
  {d : Dialect} {ps qs qs' ks : List Piece}

theorem totalWidth_of_literal (literal : ∀ p ∈ qs, p.Literal d) : Piece.totalWidth d qs = (qs.flatMap Piece.source).length := by
  induction qs with
  | nil => rfl
  | cons p qs ih =>
    have here := literal p List.mem_cons_self
    rw [Piece.totalWidth, List.flatMap_cons, List.length_append, ih fun p member => literal p (List.mem_cons_of_mem _ member)]
    cases p with
    | text own written problem => rw [Piece.width, Piece.source, here.1]
    | tag own t => rw [Piece.width, Piece.source, show t.render d = own from here]
    | dropped | stray => cases here

theorem weld_of_literal {last : Option Char} {afterText : Bool} (literal : ∀ p ∈ qs, p.Literal d) :
    Piece.weld d last false afterText qs = qs.flatMap Piece.source := by
  induction qs generalizing last afterText with
  | nil => rfl
  | cons p qs ih =>
    have here := literal p List.mem_cons_self
    have later := fun p member => literal p (List.mem_cons_of_mem _ member)
    rw [List.flatMap_cons]
    cases p with
    | text own written problem => rw [Piece.weld_text, Piece.space_of_tight, ih later, List.nil_append, Piece.source, here.1]
    | tag own t => rw [Piece.weld_tag, ih later, Piece.source, show t.render d = own from here]
    | dropped | stray => cases here

theorem problems_of_literal (literal : ∀ p ∈ qs, p.Literal d) : qs.filterMap Piece.problem? = [] := by
  rw [List.filterMap_eq_nil_iff]
  intro p member
  have here := literal p member
  cases p with
  | text own written problem => exact here.2
  | tag own t => rfl
  | dropped | stray => cases here

theorem Reread.alike (again : Reread d ks qs) (alike : Alike d qs qs') : Reread d ks qs' :=
  ⟨fun opens => alike.problem (again.reopened opens), fun once => alike.tags.trans (again.tags once),
    fun once distinct => alike.literal (again.literal once distinct)⟩

theorem reread_line (d : Dialect) (flags : List Bool) (source : Text) :
    Reread d (Piece.settle flags (scanLine d source))
      (scanLine d (Line.guardFence (Piece.weld d none false false (Piece.settle flags (scanLine d source))))) := by
  obtain ⟨qs, reading, again⟩ : ∃ qs, Reading d [] true none (Piece.weld d none false false (Piece.settle flags (scanLine d source))) qs ∧
      Reread d (Piece.settle flags (scanLine d source)) qs := reread (reading_scan d true none source) abreast_start
  obtain ⟨qs', guarded, alike⟩ := reading_guardFence reading
  obtain rfl := guarded.scan_eq
  exact again.alike alike

theorem Reread.once (again : Reread d ks qs) (image : .dataUrl ∉ qs.filterMap Piece.problem?) : reopens d ks = false := by
  rw [Bool.eq_false_iff]
  intro opens
  obtain ⟨p, member, problem⟩ := again.reopened opens
  exact image (List.mem_filterMap.mpr ⟨p, member, problem⟩)

theorem sources_scanLine (d : Dialect) (s : Text) : (scanLine d s).flatMap Piece.source = s :=
  (reading_scan d true none s).sources

theorem scanLine_comment (d : Dialect) : scanLine d (d.comment longLineNote) = [.plain (d.comment longLineNote)] := by
  cases d <;> rfl

theorem ofProse_comment (rules : Rules) :
    Line.ofProse rules (rules.dialect.comment longLineNote) =
      if rules.maxLine < (rules.dialect.comment longLineNote).length then .replaced (rules.dialect.comment longLineNote)
      else .prose (rules.dialect.comment longLineNote) [.plain (rules.dialect.comment longLineNote)] := by
  unfold Line.ofProse
  rw [scanLine_comment]
  rfl

theorem tags_ofProse_comment (rules : Rules) : (Line.ofProse rules (rules.dialect.comment longLineNote)).tags = [] := by
  rw [ofProse_comment]
  split <;> rfl

theorem render_ofProse_comment (rules : Rules) :
    (Line.ofProse rules (rules.dialect.comment longLineNote)).render rules.dialect = rules.dialect.comment longLineNote := by
  rw [ofProse_comment]
  split
  · rfl
  · have literal : ∀ p ∈ [Piece.plain (rules.dialect.comment longLineNote)], p.Literal rules.dialect :=
      fun p member => (flat_plain _ p member).1
    rw [Line.render, weld_of_literal literal, guardFence_of_none] <;>
      simp [Piece.plain, Piece.source, comment_open?]

theorem ofProse_of_literal {w : Text} (literal : ∀ p ∈ scanLine rules.dialect w, p.Literal rules.dialect) :
    Line.ofProse rules w = if rules.maxLine < w.length then .replaced w else .prose w (scanLine rules.dialect w) := by
  unfold Line.ofProse
  simp only [totalWidth_of_literal literal, sources_scanLine]

theorem render_of_literal {w : Text} (literal : ∀ p ∈ scanLine d w, p.Literal d) (prose : Fence.open? w = none) :
    (Line.prose w (scanLine d w)).render d = w := by
  rw [Line.render, weld_of_literal literal, sources_scanLine, guardFence_of_none prose]

/-- A stable line is read as it stands by the second pass, and only its tags lose their spelling. -/
theorem Line.Settled.again_of_stable (settled : l.Settled rules held source) (stable : l.Stable rules) :
    (l.again rules).tags = l.tags.map (Tag.normal rules.dialect) ∧
      (l.again rules).render rules.dialect = l.render rules.dialect ∧
      ((rules.dialect.comment longLineNote).length ≤ rules.maxLine → (l.again rules).problems = []) := by
  cases settled with
  | fenced => exact ⟨rfl, rfl, fun _ => rfl⟩
  | replaced =>
    refine ⟨tags_ofProse_comment rules, render_ofProse_comment rules, fun enough => ?_⟩
    simp only [Line.again, Line.render, ofProse_comment, if_neg (Nat.not_lt.mpr enough)]
    rfl
  | prose flags =>
    obtain ⟨once, distinct, fits⟩ := stable
    have again := reread_line rules.dialect flags source
    have literal := again.literal once distinct
    have read := (ofProse_of_literal literal).trans (if_neg (Nat.not_lt.mpr fits))
    rw [Line.again, Line.render, read]
    · refine ⟨(again.tags once).trans (congrArg _ (List.filter_eq_self.mpr fun t member => ?_)), ?_, fun _ => problems_of_literal literal⟩
      · rw [distinct t member]
        rfl
      · exact render_of_literal literal (open?_guardFence _)
    · intro own same
      cases same

theorem balanced_run (rules : Rules) (t : Text) : Balanced ((Pass.run rules t).lines.flatMap Line.tags) := by
  unfold Pass.run
  simp only [tags_settleLines]
  exact balanced_keep _

theorem settleLines_of_balanced (balanced : Balanced (ls.flatMap Line.tags)) :
    settleLines (keepFlags (ls.flatMap Line.tags)) ls = ls := by
  rw [balanced.keepFlags_eq]
  exact settleLines_replicate (Nat.le_refl _)

theorem flatMap_again {f : Tag → Tag} (same : ∀ l ∈ ls, (l.again rules).tags = l.tags.map f) :
    (ls.map (Line.again rules)).flatMap Line.tags = (ls.flatMap Line.tags).map f := by
  rw [List.flatMap_map, List.map_flatMap]
  exact List.flatMap_congr same

theorem run_sanitize_of_stable (stable : ∀ l ∈ (Pass.run rules t).lines, l.Stable rules) :
    (Pass.run rules (sanitize rules t)).lines = (Pass.run rules t).lines.map (Line.again rules) := by
  have passed := passed_run rules t
  have tags : _ = ((Pass.run rules t).lines.flatMap Line.tags).map (Tag.normal rules.dialect) := flatMap_again fun l member => by
    obtain ⟨held, source, -, settled⟩ := passed.exists_settled member
    exact (settled.again_of_stable (stable l member)).1
  rw [run_sanitize]
  apply settleLines_of_balanced
  rw [tags]
  exact (balanced_run rules t).normal _

/-- Nothing of the text is lost in the second pass: no image is left out, no tag is without a partner, and no written
prose is over the limit. -/
structure Quiet (rules : Rules) (t : Text) : Prop where
  images : ∀ l ∈ (Pass.run rules (sanitize rules t)).lines, .dataUrl ∉ l.problems
  paired : ∀ l ∈ (Pass.run rules (sanitize rules t)).lines, .unclosedTag ∉ l.problems
  fits : ∀ l ∈ (Pass.run rules t).lines, (∃ s ps, l = .prose s ps) → ∀ s, l.again rules ≠ .replaced s

theorem lines_of_paired (paired : ∀ l ∈ (Pass.run rules (sanitize rules t)).lines, .unclosedTag ∉ l.problems) :
    (Pass.run rules (sanitize rules t)).lines = (Pass.run rules t).lines.map (Line.again rules) := by
  rw [run_sanitize] at paired ⊢
  exact settleLines_of_paired paired

theorem Quiet.lines (quiet : Quiet rules t) :
    (Pass.run rules (sanitize rules t)).lines = (Pass.run rules t).lines.map (Line.again rules) := lines_of_paired quiet.paired

/-- In a line of which no image is left out the tags are read that do not look like autolinks. -/
theorem Line.Settled.again_of_quiet (settled : l.Settled rules held source) (image : .dataUrl ∉ (l.again rules).problems)
    (fits : (∃ s ps, l = .prose s ps) → ∀ s, l.again rules ≠ .replaced s) :
    (l.again rules).tags = (l.tags.filter (!·.isLinkLike rules.dialect)).map (Tag.normal rules.dialect) ∧
      ((∀ t ∈ l.tags, t.isLinkLike rules.dialect = false) → l.Stable rules) := by
  cases settled with
  | fenced => exact ⟨rfl, fun _ => trivial⟩
  | replaced =>
    refine ⟨?_, fun _ => trivial⟩
    simp only [Line.again, Line.render, ofProse_comment]
    split <;> rfl
  | prose flags =>
    have again := reread_line rules.dialect flags source
    have fits := fits ⟨_, _, rfl⟩
    rw [Line.again, Line.render] at image fits ⊢
    · unfold Line.ofProse at image fits ⊢
      simp only at image fits ⊢
      split at fits
      next => exact absurd rfl (fits _)
      next short =>
        rw [if_neg short] at image ⊢
        have once := again.once image
        refine ⟨again.tags once, fun distinct => ⟨once, distinct, ?_⟩⟩
        rw [totalWidth_of_literal (again.literal once distinct), sources_scanLine] at short
        exact Nat.not_lt.mp short
    all_goals
      intro own same
      cases same

theorem wellFormed_of_reading {q : Bool} {b : Option Char} {after s : Text} (reading : Reading d after q b s ps) :
    ∀ t ∈ ps.filterMap Piece.tag?, t.WellFormed := by
  induction reading with
  | done => simp
  | @more _ _ _ _ p _ token _ ih =>
    intro t member
    rw [List.filterMap_cons] at member
    split at member
    next => exact ih t member
    next u tagged =>
      rcases List.mem_cons.mp member with rfl | member
      · cases token <;> cases tagged
        exact Tag.Spelling.wellFormed ‹_›
      · exact ih t member

theorem mem_of_mem_keep {flags : List Bool} {ts : List Tag} {t : Tag} (member : t ∈ keep flags ts) : t ∈ ts := by
  obtain ⟨⟨u, flag⟩, inside, rfl⟩ := List.mem_map.mp member
  exact (List.of_mem_zip (List.mem_filter.mp inside).1).1

theorem wellFormed_run {u : Tag} (t : Text) (member : u ∈ (Pass.run rules t).lines.flatMap Line.tags) : u.WellFormed := by
  obtain ⟨l, inside, tagged⟩ := List.mem_flatMap.mp member
  obtain ⟨held, source, -, settled⟩ := (passed_run rules t).exists_settled inside
  cases settled with
  | fenced | replaced => cases tagged
  | prose flags =>
    rw [Line.tags, Line.pieces, tags_settle] at tagged
    exact wellFormed_of_reading (reading_scan rules.dialect true none source) u (mem_of_mem_keep tagged)

theorem opening_of_isLinkLike {u : Tag} (valid : u.WellFormed) (link : u.isLinkLike d = true) : u.kind = .opening := by
  obtain ⟨⟨url, rest⟩, found⟩ := Option.isSome_iff_exists.mp link
  exact (autolink?_render valid (r := []) (by rw [List.append_nil]; exact found)).1

theorem count_distinct {ts : List Tag} (opening : ∀ t ∈ ts, t.isLinkLike d = true → t.kind = .opening) :
    ts.countP (·.kind == .opening) = (ts.filter (!·.isLinkLike d)).countP (·.kind == .opening) + ts.countP (Tag.isLinkLike d) ∧
      ts.countP (·.kind == .closing) = (ts.filter (!·.isLinkLike d)).countP (·.kind == .closing) := by
  induction ts with
  | nil => exact ⟨rfl, rfl⟩
  | cons t ts ih =>
    obtain ⟨opened, closed⟩ := ih fun u member => opening u (List.mem_cons_of_mem _ member)
    cases link : t.isLinkLike d with
    | true =>
      have kind := opening t List.mem_cons_self link
      constructor
      · simp only [List.countP_cons, List.filter_cons, link, kind, opened]
        simp
        omega
      · simp [link, kind, closed]
    | false =>
      constructor
      · simp only [List.countP_cons, List.filter_cons, link, opened]
        simp [List.countP_cons]
        omega
      · simp [List.countP_cons, link, closed]

/-- Opening tags cannot be taken out of balanced tags. -/
theorem distinct_of_balanced {ts : List Tag} (opening : ∀ t ∈ ts, t.isLinkLike d = true → t.kind = .opening)
    (before : Balanced ts) (after : Balanced ((ts.filter (!·.isLinkLike d)).map (Tag.normal d))) :
    ∀ t ∈ ts, t.isLinkLike d = false := by
  obtain ⟨opened, closed⟩ := count_distinct opening
  have whole := before.count
  have part : (ts.filter (!·.isLinkLike d)).countP (·.kind == .opening) = (ts.filter (!·.isLinkLike d)).countP (·.kind == .closing) := by
    have part := after.count
    rw [List.countP_map, List.countP_map] at part
    exact part
  have none : ts.countP (Tag.isLinkLike d) = 0 := by omega
  intro t member
  simpa using List.countP_eq_zero.mp none t member

/-- Where nothing is lost in the second pass every line was stable: the closing tags still have partners, so no opening
tag is taken for an autolink. -/
theorem Quiet.stable (quiet : Quiet rules t) : ∀ l ∈ (Pass.run rules t).lines, l.Stable rules := by
  have passed := passed_run rules t
  have read : ∀ l ∈ (Pass.run rules t).lines,
      (l.again rules).tags = (l.tags.filter (!·.isLinkLike rules.dialect)).map (Tag.normal rules.dialect) ∧
        ((∀ t ∈ l.tags, t.isLinkLike rules.dialect = false) → l.Stable rules) := by
    intro l member
    obtain ⟨held, source, -, settled⟩ := passed.exists_settled member
    have image := quiet.images (l.again rules) (by rw [quiet.lines]; exact List.mem_map_of_mem member)
    exact settled.again_of_quiet image (quiet.fits l member)
  have before := balanced_run rules t
  have after := balanced_run rules (sanitize rules t)
  rw [quiet.lines] at after
  have tags : ((Pass.run rules t).lines.map (Line.again rules)).flatMap Line.tags =
      (((Pass.run rules t).lines.flatMap Line.tags).filter (!·.isLinkLike rules.dialect)).map (Tag.normal rules.dialect) := by
    rw [List.flatMap_map, List.filter_flatMap, List.map_flatMap]
    exact List.flatMap_congr fun l member => (read l member).1
  rw [tags] at after
  have distinct := distinct_of_balanced (fun u member link => opening_of_isLinkLike (wellFormed_run t member) link) before after
  intro l member
  exact (read l member).2 fun u inside => distinct u (List.mem_flatMap_of_mem member inside)

end NotebookPages.Markup
