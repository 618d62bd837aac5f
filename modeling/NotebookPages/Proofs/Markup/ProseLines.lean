import NotebookPages.Proofs.Markup.FencedBlocks
import NotebookPages.Proofs.Markup.Stability
import NotebookPages.Proofs.Markup.Trimmed

/-! What a pass finds, by the lines of prose. A pass is clean if every line of prose is tidy and the tags of all of them
are balanced, and this can be told from any division of the text into parts that leave no fence open. -/

namespace NotebookPages.Markup

/-- The lines of prose among lines, the first of which `held` holds. -/
def proseLines (held : Option Fence) : List Text → List Text
  | [] => []
  | line :: rest =>
    if Fence.isProse held line then line :: proseLines (Fence.next held line) rest else proseLines (Fence.next held line) rest

def tagsOf (d : Dialect) (line : Text) : List Tag := (scanLine d line).filterMap Piece.tag?

def problemsOf (d : Dialect) (line : Text) : List Problem := (scanLine d line).filterMap Piece.problem?

/-- Only a fence left open is a problem there. -/
def Clean (problems : List Problem) : Prop := ∀ p ∈ problems, p = .unclosedFence

instance (problems : List Problem) : Decidable (Clean problems) :=
  inferInstanceAs (Decidable (∀ p ∈ problems, p = .unclosedFence))

/-- The line is within the limit and nothing is wrong with it. -/
structure Tidy (rules : Rules) (line : Text) : Prop where
  fits : Piece.totalWidth rules.dialect (scanLine rules.dialect line) ≤ rules.maxLine
  silent : Clean (problemsOf rules.dialect line)

/-- Every line of prose is tidy, and the tags of all of them are balanced. -/
structure Clear (rules : Rules) (lines : List Text) : Prop where
  tidy : ∀ line ∈ proseLines none lines, Tidy rules line
  balanced : Balanced ((proseLines none lines).flatMap (tagsOf rules.dialect))

variable {rules : Rules} {held : Option Fence} {fence : Fence} {t w : Text} {sources inner a b : List Text} {d : Dialect}

theorem proseLines_append (held : Option Fence) (a b : List Text) :
    proseLines held (a ++ b) = proseLines held a ++ proseLines (Fence.after held a) b := by
  induction a generalizing held with
  | nil => rfl
  | cons line a ih =>
    rw [List.cons_append, proseLines, proseLines, Fence.after_cons, ih]
    split <;> rfl

theorem proseLines_held (open' : ∀ line ∈ inner, fence.closes line = false) : proseLines (some fence) inner = [] := by
  induction inner with
  | nil => rfl
  | cons line inner ih =>
    rw [proseLines, if_neg (by simp [Fence.isProse]), Fence.next, open' line List.mem_cons_self]
    exact ih fun other member => open' other (List.mem_cons_of_mem line member)

theorem proseLines_of_encloses {lines : List Text} (encloses : Fence.Encloses fence inner lines) : proseLines none lines = [] := by
  obtain ⟨first, last, rfl, opened, -⟩ := encloses.shape
  rw [proseLines, if_neg (by simp [Fence.isProse, opened]), Fence.next, opened, proseLines_append, proseLines_held encloses.held,
    Fence.after_held encloses.held, proseLines, if_neg (by simp [Fence.isProse])]
  rfl

theorem proseLines_of_prose {lines : List Text} (prose : ∀ line ∈ lines, Fence.open? line = none) : proseLines none lines = lines := by
  induction lines with
  | nil => rfl
  | cons line lines ih =>
    have here := prose line List.mem_cons_self
    rw [proseLines, if_pos (by simp [Fence.isProse, here]), Fence.next, here,
      ih fun other member => prose other (List.mem_cons_of_mem line member)]

theorem tagsOf_of_not_mem (absent : '<' ∉ w) : tagsOf d w = [] := by
  have none : ∀ {q b s ps}, Reading d [] q b s ps → '<' ∉ s → ps.filterMap Piece.tag? = [] := by
    intro q b s ps reading
    induction reading with
    | done => exact fun _ => rfl
    | @more q b a r p ps token _ ih =>
      intro absent
      rw [List.mem_append, not_or] at absent
      rw [List.filterMap_cons_none, ih absent.2]
      cases token with
      | tag spelled =>
        obtain ⟨x, rfl⟩ := spelled.closes
        exact absurd List.mem_cons_self absent.1
      | _ => rfl
  exact none (reading_scan d true Option.none w) absent

theorem clean_append_iff {ps qs : List Problem} : Clean (ps ++ qs) ↔ Clean ps ∧ Clean qs := by
  simp [Clean, or_imp, forall_and]

theorem clean_ofProse_iff : Clean (Line.ofProse rules w).problems ↔ Tidy rules w := by
  unfold Line.ofProse
  simp only
  split
  next long =>
    constructor
    · intro clean
      exact Problem.noConfusion (clean .longLine List.mem_cons_self)
    · intro tidy
      exact absurd tidy.fits (Nat.not_le.mpr long)
  next short => exact ⟨fun clean => ⟨Nat.not_lt.mp short, clean⟩, fun tidy => tidy.silent⟩

theorem clean_readLines_iff (held : Option Fence) (sources : List Text) :
    Clean ((readLines rules held sources).flatMap Line.problems) ↔ ∀ line ∈ proseLines held sources, Tidy rules line := by
  induction sources generalizing held with
  | nil => simp [readLines, proseLines, Clean]
  | cons source sources ih =>
    rw [readLines, List.flatMap_cons, clean_append_iff, ih, proseLines, Line.read]
    split
    next => rw [clean_ofProse_iff, List.forall_mem_cons]
    next => simp [Line.problems, Clean]

theorem tags_readLines (tidy : ∀ line ∈ proseLines held sources, Tidy rules line) :
    (readLines rules held sources).flatMap Line.tags = (proseLines held sources).flatMap (tagsOf rules.dialect) := by
  induction sources generalizing held with
  | nil => rfl
  | cons source sources ih =>
    rw [proseLines] at tidy ⊢
    rw [readLines, List.flatMap_cons, Line.read]
    split at tidy
    next prose =>
      rw [if_pos prose, if_pos prose, List.flatMap_cons, ih fun line member => tidy line (List.mem_cons_of_mem _ member)]
      unfold Line.ofProse
      simp only
      rw [if_neg (Nat.not_lt.mpr (tidy source List.mem_cons_self).fits)]
      rfl
    next other =>
      rw [if_neg other, if_neg other, ih tidy]
      rfl

/-- A pass is clean exactly if what it reads is clear. -/
theorem clean_run_iff (rules : Rules) (t : Text) : Clean (Pass.run rules t).problems ↔ Clear rules (Text.splitLines t) := by
  constructor
  · intro clean
    have paired : ∀ l ∈ (Pass.run rules t).lines, .unclosedTag ∉ l.problems :=
      fun l member inside => Problem.noConfusion (clean _ (List.mem_flatMap.mpr ⟨l, member, inside⟩))
    have lines : (Pass.run rules t).lines = readLines rules none (Text.splitLines t) := settleLines_of_paired paired
    rw [Pass.problems, lines] at clean
    have tidy := (clean_readLines_iff none _).mp clean
    have balanced := balanced_run rules t
    rw [lines, tags_readLines tidy] at balanced
    exact ⟨tidy, balanced⟩
  · rintro ⟨tidy, balanced⟩
    have lines : (Pass.run rules t).lines = readLines rules none (Text.splitLines t) := by
      rw [← tags_readLines tidy] at balanced
      rw [Pass.run]
      simp only [balanced.keepFlags_eq]
      exact settleLines_replicate (Nat.le_refl _)
    rw [Pass.problems, lines]
    exact (clean_readLines_iff none _).mpr tidy

theorem isProse_of_blank {u v : Text} (front : Text.Blank u) (back : Text.Blank v) :
    Fence.isProse held (u ++ (w ++ v)) = Fence.isProse held w := by
  rw [Fence.isProse, Fence.isProse, Fence.open?_of_blank_start front, Fence.open?_of_blank_end w back]

/-- What the lines of prose hold is found in padded lines as well. -/
theorem gather_of_padded {α : Type} {f : Piece → Option α} (silent : ∀ c, f (.plain [c]) = none) (padded : Text.Padded a b)
    (long : Fence.Long held) : (proseLines held a).flatMap (fun line => (scanLine d line).filterMap f) =
      (proseLines held b).flatMap fun line => (scanLine d line).filterMap f := by
  induction padded generalizing held with
  | nil => rfl
  | @blank line _ _ blank _ ih =>
    have none : (scanLine d line).filterMap f = [] := by
      have padded := filterMap_scanLine_pad (d := d) silent Text.blank_nil blank []
      rw [List.nil_append, List.nil_append] at padded
      exact padded
    rw [proseLines, Fence.next_blank long blank]
    split
    · rw [List.flatMap_cons, none, List.nil_append, ih long]
    · exact ih long
  | @line u w v _ _ front back _ ih =>
    rw [proseLines, proseLines, isProse_of_blank front back, Fence.next_of_blank front back]
    split
    · rw [List.flatMap_cons, List.flatMap_cons, filterMap_scanLine_pad silent front back, ih (long.next w)]
    · exact ih (long.next w)

/-- No bracket begins a link anew, and no tag looks like an autolink. -/
def Line.Distinct (d : Dialect) : Line → Prop
  | .prose _ pieces => reopens d pieces = false ∧ ∀ t ∈ pieces.filterMap Piece.tag?, t.isLinkLike d = false
  | _ => True

instance (d : Dialect) (l : Line) : Decidable (l.Distinct d) :=
  match l with
  | .prose _ _ => inferInstanceAs (Decidable (_ ∧ _))
  | .fenced _ => .isTrue trivial
  | .replaced _ => .isTrue trivial

def Line.prose? (d : Dialect) : Line → Option Text
  | .fenced _ => none
  | l => some (l.render d)

variable {l : Line} {ls : List Line} {source : Text}

theorem Passed.proseLines (passed : Passed rules held sources ls) :
    Markup.proseLines held (ls.map (Line.render rules.dialect)) = ls.filterMap (Line.prose? rules.dialect) := by
  induction passed with
  | nil => rfl
  | cons first _ ih =>
    rw [List.map_cons, Markup.proseLines, first.isProse, first.next, ih]
    cases first with
    | fenced inside => rw [if_neg (by simp [inside])]; rfl
    | prose flags outside => rw [if_pos outside]; rfl
    | replaced outside => rw [if_pos outside]; rfl

theorem Line.Settled.tags_of_clean (settled : l.Settled rules held source) (written : l.prose? rules.dialect = some w)
    (clean : Clean (problemsOf rules.dialect w)) :
    tagsOf rules.dialect w = (l.tags.filter (!·.isLinkLike rules.dialect)).map (Tag.normal rules.dialect) ∧
      ((∀ t ∈ l.tags, t.isLinkLike rules.dialect = false) → l.Distinct rules.dialect) := by
  cases settled with
  | fenced => cases written
  | replaced =>
    obtain rfl := Option.some.inj written
    refine ⟨?_, fun _ => trivial⟩
    rw [Line.render, tagsOf, scanLine_comment]
    rfl
  | prose flags =>
    obtain rfl := Option.some.inj written
    have again := reread_line rules.dialect flags source
    have once := again.once fun image => Problem.noConfusion (clean .dataUrl image)
    exact ⟨again.tags once, fun distinct => ⟨once, distinct⟩⟩

theorem Line.Settled.literal_of_distinct (settled : l.Settled rules held source) (written : l.prose? rules.dialect = some w)
    (distinct : l.Distinct rules.dialect) :
    (∀ p ∈ scanLine rules.dialect w, p.Literal rules.dialect) ∧ tagsOf rules.dialect w = l.tags.map (Tag.normal rules.dialect) := by
  cases settled with
  | fenced => cases written
  | replaced =>
    obtain rfl := Option.some.inj written
    rw [Line.render, tagsOf, scanLine_comment]
    exact ⟨fun p member => (flat_plain _ p member).1, rfl⟩
  | prose flags =>
    obtain rfl := Option.some.inj written
    have again := reread_line rules.dialect flags source
    refine ⟨again.literal distinct.1 distinct.2, (again.tags distinct.1).trans (congrArg _ (List.filter_eq_self.mpr fun t member => ?_))⟩
    rw [distinct.2 t member]
    rfl

variable {lines : List Text}

theorem proseLines_sanitize (rules : Rules) (t : Text) :
    proseLines none (Text.splitLines (sanitize rules t)) = (Pass.run rules t).lines.filterMap (Line.prose? rules.dialect) := by
  rw [splitLines_sanitize]
  exact (passed_run rules t).proseLines

theorem tags_of_prose?_eq_none (none : l.prose? d = none) : l.tags = [] := by
  cases l with
  | fenced => rfl
  | prose | replaced => cases none

theorem flatMap_filterMap {α β γ : Type} (g : α → Option β) (f : β → List γ) (as : List α) :
    (as.filterMap g).flatMap f = as.flatMap fun a => (g a).elim [] f := by
  induction as with
  | nil => rfl
  | cons a as ih =>
    rw [List.filterMap_cons, List.flatMap_cons, ← ih]
    cases g a <;> rfl

/-- Where nothing is wrong with the written lines, the tags in them are those that do not look like autolinks. -/
theorem tags_of_clean (padded : Text.Padded (Text.splitLines (sanitize rules t)) lines)
    (clean : ∀ line ∈ proseLines none lines, Clean (problemsOf rules.dialect line)) :
    (proseLines none lines).flatMap (tagsOf rules.dialect) =
        (((Pass.run rules t).lines.flatMap Line.tags).filter (!·.isLinkLike rules.dialect)).map (Tag.normal rules.dialect) ∧
      ((∀ u ∈ (Pass.run rules t).lines.flatMap Line.tags, u.isLinkLike rules.dialect = false) →
        ∀ l ∈ (Pass.run rules t).lines, l.Distinct rules.dialect) := by
  have problems := gather_of_padded (d := rules.dialect) (f := Piece.problem?) (fun _ => rfl) padded Fence.long_none
  have tags := gather_of_padded (d := rules.dialect) (f := Piece.tag?) (fun _ => rfl) padded Fence.long_none
  rw [proseLines_sanitize] at problems tags
  have silent : ∀ l ∈ (Pass.run rules t).lines, ∀ w, l.prose? rules.dialect = some w → Clean (problemsOf rules.dialect w) := by
    intro l member w written p inside
    have found := List.mem_flatMap_of_mem (f := problemsOf rules.dialect) (List.mem_filterMap.mpr ⟨l, member, written⟩) inside
    obtain ⟨line, here, problem⟩ := List.mem_flatMap.mp (problems ▸ found)
    exact clean line here p problem
  have read : ∀ l ∈ (Pass.run rules t).lines,
      (l.prose? rules.dialect).elim [] (tagsOf rules.dialect) =
          (l.tags.filter (!·.isLinkLike rules.dialect)).map (Tag.normal rules.dialect) ∧
        ((∀ u ∈ l.tags, u.isLinkLike rules.dialect = false) → l.Distinct rules.dialect) := by
    intro l member
    obtain ⟨held, source, -, settled⟩ := (passed_run rules t).exists_settled member
    cases written : l.prose? rules.dialect with
    | none =>
      rw [tags_of_prose?_eq_none written]
      cases l with
      | fenced => exact ⟨rfl, fun _ => trivial⟩
      | prose | replaced => cases written
    | some w => exact settled.tags_of_clean written (silent l member w written)
  constructor
  · refine tags.symm.trans ((flatMap_filterMap _ _ _).trans ?_)
    rw [List.filter_flatMap, List.map_flatMap]
    exact List.flatMap_congr fun l member => (read l member).1
  · intro plain l member
    exact (read l member).2 fun u inside => plain u (List.mem_flatMap_of_mem member inside)

/-- Where the lines are distinct, every piece of the written lines stands for itself. -/
theorem literal_of_distinct (padded : Text.Padded (Text.splitLines (sanitize rules t)) lines)
    (distinct : ∀ l ∈ (Pass.run rules t).lines, l.Distinct rules.dialect) :
    (∀ line ∈ proseLines none lines, ∀ p ∈ scanLine rules.dialect line, p.Literal rules.dialect) ∧
      (proseLines none lines).flatMap (tagsOf rules.dialect) = ((Pass.run rules t).lines.flatMap Line.tags).map (Tag.normal rules.dialect) := by
  classical
  have foreign := gather_of_padded (d := rules.dialect) (f := fun p => if p.Literal rules.dialect then none else some p)
    (fun c => if_pos ⟨rfl, rfl⟩) padded Fence.long_none
  have tags := gather_of_padded (d := rules.dialect) (f := Piece.tag?) (fun _ => rfl) padded Fence.long_none
  rw [proseLines_sanitize] at foreign tags
  have read : ∀ l ∈ (Pass.run rules t).lines, ∀ w, l.prose? rules.dialect = some w →
      (∀ p ∈ scanLine rules.dialect w, p.Literal rules.dialect) ∧ tagsOf rules.dialect w = l.tags.map (Tag.normal rules.dialect) := by
    intro l member w written
    obtain ⟨held, source, -, settled⟩ := (passed_run rules t).exists_settled member
    exact settled.literal_of_distinct written (distinct l member)
  constructor
  · intro line here p inside
    by_contra other
    have found := List.mem_flatMap_of_mem (f := fun line => (scanLine rules.dialect line).filterMap fun p =>
      if p.Literal rules.dialect then none else some p) here (List.mem_filterMap.mpr ⟨p, inside, if_neg other⟩)
    obtain ⟨w, member, again⟩ := List.mem_flatMap.mp (foreign ▸ found)
    obtain ⟨l, source, written⟩ := List.mem_filterMap.mp member
    obtain ⟨p', inside', same⟩ := List.mem_filterMap.mp again
    rw [if_pos ((read l source w written).1 p' inside')] at same
    cases same
  · refine tags.symm.trans ((flatMap_filterMap _ _ _).trans ?_)
    rw [List.map_flatMap]
    apply List.flatMap_congr
    intro l member
    cases written : l.prose? rules.dialect with
    | none =>
      rw [tags_of_prose?_eq_none written]
      rfl
    | some w => exact (read l member w written).2

end NotebookPages.Markup
