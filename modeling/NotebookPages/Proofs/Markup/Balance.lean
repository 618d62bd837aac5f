import NotebookPages.Markup.Sanitize
import NotebookPages.Proofs.Markup.TagRoundTrip

/-! The tags that pairing keeps are balanced, and of balanced tags it keeps every one. The invariant is a stack of
segments: one after each pending opening tag, and each holds balanced tags once the others are removed. -/

namespace NotebookPages.Markup

/-- Every opening tag is followed by balanced tags and a closing tag of the same name. -/
inductive Balanced : List Tag → Prop where
  | nil : Balanced []
  | single {t : Tag} {rest : List Tag} (kind : t.kind = .selfClosing) (later : Balanced rest) : Balanced (t :: rest)
  | pair {o c : Tag} {inner rest : List Tag} (opens : o.kind = .opening) (closes : c.kind = .closing) (same : c.name = o.name)
      (within : Balanced inner) (later : Balanced rest) : Balanced (o :: (inner ++ c :: rest))

variable {ts us : List Tag}

theorem Balanced.append (one : Balanced ts) (other : Balanced us) : Balanced (ts ++ us) := by
  induction one with
  | nil => exact other
  | single kind _ ih => exact .single kind ih
  | pair opens closes same within _ _ ih =>
    rw [List.cons_append, List.append_assoc, List.cons_append]
    exact .pair opens closes same within ih

theorem Balanced.normal (balanced : Balanced ts) (d : Dialect) : Balanced (ts.map (Tag.normal d)) := by
  induction balanced with
  | nil => exact .nil
  | single kind _ ih => exact .single kind ih
  | pair opens closes same _ _ within ih =>
    rw [List.map_cons, List.map_append, List.map_cons]
    exact .pair opens closes same within ih

theorem Balanced.count (balanced : Balanced ts) : ts.countP (·.kind == .opening) = ts.countP (·.kind == .closing) := by
  induction balanced with
  | nil => rfl
  | single kind _ ih => simp [kind, ih]
  | pair opens closes _ _ _ within ih =>
    simp only [List.countP_cons, List.countP_append, opens, closes]
    simp
    omega

def keep (flags : List Bool) (ts : List Tag) : List Tag := ((ts.zip flags).filter Prod.snd).map Prod.fst

namespace Pairing

def among (kept : List Nat) (seen : List (Tag × Nat)) : List Tag := (seen.filter (kept.contains ·.2)).map Prod.fst

/-- The numbered tags taken in, as segments behind the pending ones. -/
inductive Segments (kept : List Nat) : List (Nat × Text) → List (Tag × Nat) → Prop where
  | base {seen : List (Tag × Nat)} (balanced : Balanced (among kept seen)) : Segments kept [] seen
  | opened {stack : List (Nat × Text)} {o : Tag} {i : Nat} {outer inner : List (Tag × Nat)} (opens : o.kind = .opening)
      (waiting : i ∉ kept) (below : Segments kept stack outer) (balanced : Balanced (among kept inner)) :
      Segments kept ((i, o.name) :: stack) (outer ++ (o, i) :: inner)

variable {kept kept' : List Nat} {stack : List (Nat × Text)} {seen more : List (Tag × Nat)}

theorem among_append (kept : List Nat) (a b : List (Tag × Nat)) : among kept (a ++ b) = among kept a ++ among kept b := by
  simp [among]

theorem among_cons_in {t : Tag} {i : Nat} (member : i ∈ kept) : among kept ((t, i) :: seen) = t :: among kept seen := by
  simp [among, member]

theorem among_cons_out {t : Tag} {i : Nat} (absent : i ∉ kept) : among kept ((t, i) :: seen) = among kept seen := by
  simp [among, absent]

theorem among_congr (same : ∀ entry ∈ seen, entry.2 ∈ kept' ↔ entry.2 ∈ kept) : among kept' seen = among kept seen := by
  unfold among
  congr 1
  apply List.filter_congr
  intro entry member
  rw [List.contains_eq_mem, List.contains_eq_mem, decide_eq_decide]
  exact same entry member

theorem Segments.extend (segments : Segments kept stack seen) (balanced : Balanced (among kept more)) :
    Segments kept stack (seen ++ more) := by
  cases segments with
  | base first =>
    refine .base ?_
    rw [among_append]
    exact first.append balanced
  | opened opens waiting below inner =>
    rw [List.append_assoc, List.cons_append]
    refine .opened opens waiting below ?_
    rw [among_append]
    exact inner.append balanced

/-- Only the numbers of the tags taken in matter. -/
theorem Segments.congr (segments : Segments kept stack seen) (same : ∀ entry ∈ seen, entry.2 ∈ kept' ↔ entry.2 ∈ kept) :
    Segments kept' stack seen := by
  induction segments with
  | base balanced => exact .base (among_congr same ▸ balanced)
  | @opened _ o i outer inner opens waiting _ balanced ih =>
    have inside : ∀ entry ∈ inner, entry.2 ∈ kept' ↔ entry.2 ∈ kept := fun entry member => same entry (by simp [member])
    refine .opened opens ?_ (ih fun entry member => same entry (by simp [member])) (among_congr inside ▸ balanced)
    intro member
    exact waiting ((same (o, i) (by simp)).mp member)

theorem Segments.pop {top : Nat × Text} (segments : Segments kept (top :: stack) seen) : Segments kept stack seen := by
  cases segments with
  | opened _ waiting below balanced => exact below.extend (by rwa [among_cons_out waiting])

theorem Segments.drop (segments : Segments kept stack seen) (p : Nat × Text → Bool) : Segments kept (stack.dropWhile p) seen := by
  induction stack with
  | nil => exact segments
  | cons top stack ih =>
    rw [List.dropWhile_cons]
    split
    · exact ih segments.pop
    · exact segments

theorem Segments.balanced (segments : Segments kept stack seen) : Balanced (among kept seen) := by
  induction stack with
  | nil =>
    cases segments with
    | base balanced => exact balanced
  | cons top stack ih => exact ih segments.pop

/-- What holds of the pairing after some tags. -/
structure Valid (p : Pairing) (seen : List (Tag × Nat)) : Prop where
  segments : Segments p.kept p.pending seen
  known : ∀ i ∈ p.kept, ∃ entry ∈ seen, entry.2 = i

theorem valid_start : Valid start [] := ⟨.base .nil, by simp [start]⟩

theorem Valid.step {p : Pairing} (valid : Valid p seen) {t : Tag} {n : Nat} (fresh : ∀ entry ∈ seen, entry.2 ≠ n)
    (distinct : (seen.map Prod.snd).Nodup) : Valid (p.step t n) (seen ++ [(t, n)]) := by
  have unkept : n ∉ p.kept := by
    intro member
    obtain ⟨entry, inside, same⟩ := valid.known n member
    exact fresh entry inside same
  have known : ∀ i, i ∈ p.kept ∨ i = n → ∃ entry ∈ seen ++ [(t, n)], entry.2 = i := by
    rintro i (member | rfl)
    · obtain ⟨entry, inside, same⟩ := valid.known i member
      exact ⟨entry, List.mem_append_left _ inside, same⟩
    · exact ⟨(t, i), by simp, rfl⟩
  unfold Pairing.step
  split
  next kind =>
    refine ⟨?_, fun i member => known i (by simpa [or_comm] using member)⟩
    have same : ∀ entry ∈ seen, entry.2 ∈ n :: p.kept ↔ entry.2 ∈ p.kept := fun entry member => by simp [fresh entry member]
    apply (valid.segments.congr same).extend
    rw [among_cons_in (by simp)]
    exact .single kind .nil
  next kind => exact ⟨.opened kind unkept valid.segments .nil, fun i member => known i (Or.inl member)⟩
  next kind =>
    have rest := valid.segments.drop (·.2 != t.name)
    split
    next => exact ⟨valid.segments.extend (by rw [among_cons_out unkept]; exact .nil), fun i member => known i (Or.inl member)⟩
    next partner name outer found =>
      have named : name = t.name := by
        have stop := List.head?_dropWhile_not (·.2 != t.name) p.pending
        simpa [found] using stop
      rw [found] at rest
      cases rest with
      | @opened _ o _ before inner opens waiting below balanced =>
        simp only [List.map_append, List.map_cons, List.nodup_append, List.nodup_cons, List.mem_cons, List.mem_map] at distinct
        obtain ⟨-, ⟨later, -⟩, earlier⟩ := distinct
        have outside : ∀ entry ∈ before ++ inner, entry.2 ∈ n :: partner :: p.kept ↔ entry.2 ∈ p.kept := by
          intro entry member
          have notNew : entry.2 ≠ n := fresh entry (by simp at member ⊢; exact member.imp_right Or.inr)
          have notPartner : entry.2 ≠ partner := by
            rintro rfl
            rcases List.mem_append.mp member with member | member
            · exact earlier _ ⟨entry, member, rfl⟩ _ (Or.inl rfl) rfl
            · exact later ⟨entry, member, rfl⟩
          simp [notNew, notPartner]
        refine ⟨?_, ?_⟩
        · rw [List.append_assoc, List.cons_append]
          refine (below.congr fun entry member => outside entry (List.mem_append_left _ member)).extend ?_
          have within := among_congr fun entry member => outside entry (List.mem_append_right _ member)
          rw [among_cons_in (by simp), among_append, within, among_cons_in (by simp)]
          exact .pair opens kind named.symm balanced .nil
        · intro i member
          simp only [List.mem_cons] at member
          rcases member with rfl | rfl | member
          · exact known _ (Or.inr rfl)
          · exact ⟨(o, i), by simp, rfl⟩
          · exact known i (Or.inl member)

theorem Valid.run {p : Pairing} (valid : Valid p seen) (distinct : ((seen ++ more).map Prod.snd).Nodup) :
    Valid (more.foldl (fun p (tag, i) => p.step tag i) p) (seen ++ more) := by
  induction more generalizing p seen with
  | nil => simpa using valid
  | cons entry more ih =>
    obtain ⟨t, n⟩ := entry
    have whole := distinct
    simp only [List.map_append, List.map_cons, List.nodup_append, List.mem_map, List.mem_cons] at distinct
    have next := valid.step (t := t) (n := n) (fun entry member same => distinct.2.2 _ ⟨entry, member, rfl⟩ _ (Or.inl rfl) same) distinct.1
    rw [List.foldl_cons]
    simpa using ih next (by simpa using whole)

theorem among_zip (kept : List Nat) (seen : List (Tag × Nat)) :
    among kept seen = keep (seen.map fun (_, i) => kept.contains i) (seen.map Prod.fst) := by
  induction seen with
  | nil => rfl
  | cons entry seen ih =>
    obtain ⟨t, i⟩ := entry
    by_cases member : i ∈ kept
    · rw [among_cons_in member, ih]
      simp [keep, member]
    · rw [among_cons_out member, ih]
      simp [keep, member]

end Pairing

/-- The kept tags of a document are balanced. -/
theorem balanced_keep (ts : List Tag) : Balanced (keep (keepFlags ts) ts) := by
  have distinct : (([] ++ ts.zipIdx).map Prod.snd).Nodup := by
    rw [List.nil_append, List.zipIdx_map_snd]
    exact List.nodup_range'
  have valid := Pairing.valid_start.run distinct
  have balanced := valid.segments.balanced
  rw [List.nil_append, Pairing.among_zip, List.zipIdx_map_fst] at balanced
  exact balanced

/-- Balanced tags leave the pending ones as they were, and all of them are kept. -/
theorem Balanced.run (balanced : Balanced ts) (p : Pairing) (n : Nat) :
    let final := (ts.zipIdx n).foldl (fun p (tag, i) => p.step tag i) p
    final.pending = p.pending ∧ (∀ i ∈ p.kept, i ∈ final.kept) ∧ ∀ i, n ≤ i → i < n + ts.length → i ∈ final.kept := by
  induction balanced generalizing p n with
  | nil =>
    refine ⟨rfl, fun i member => member, fun i low high => ?_⟩
    simp only [List.length_nil] at high
    omega
  | @single t rest kind _ ih =>
    have step : p.step t n = ⟨p.pending, n :: p.kept⟩ := by simp [Pairing.step, kind]
    obtain ⟨pending, old, new⟩ := ih (p.step t n) (n + 1)
    rw [step] at pending old new
    simp only [List.zipIdx_cons, List.foldl_cons, step]
    refine ⟨pending, fun i member => old i (List.mem_cons_of_mem _ member), fun i low high => ?_⟩
    rw [List.length_cons] at high
    rcases Nat.eq_or_lt_of_le low with rfl | low
    · exact old _ List.mem_cons_self
    · exact new i low (by omega)
  | @pair o c inner rest opens closes same _ _ within ih =>
    have first : p.step o n = ⟨(n, o.name) :: p.pending, p.kept⟩ := by simp [Pairing.step, opens]
    obtain ⟨pending, old, new⟩ := within (p.step o n) (n + 1)
    simp only [List.zipIdx_cons, List.foldl_cons, List.zipIdx_append, List.foldl_append]
    generalize (inner.zipIdx (n + 1)).foldl (fun p (tag, i) => p.step tag i) (p.step o n) = middle at pending old new ⊢
    rw [first] at pending old
    have second : middle.step c (n + 1 + inner.length) = ⟨p.pending, (n + 1 + inner.length) :: n :: middle.kept⟩ := by
      simp [Pairing.step, closes, pending, same]
    obtain ⟨pending', old', new'⟩ := ih (middle.step c (n + 1 + inner.length)) (n + 1 + inner.length + 1)
    rw [second] at pending' old' new'
    rw [second]
    refine ⟨pending', fun i member => old' i (by simp [old i member]), fun i low high => ?_⟩
    simp only [List.length_cons, List.length_append] at high
    by_cases here : i = n ∨ i = n + 1 + inner.length
    · apply old' i
      simp only [List.mem_cons]
      omega
    · by_cases before : i < n + 1 + inner.length
      · exact old' i (by simp [new i (by omega) before])
      · exact new' i (by omega) (by omega)

theorem length_keepFlags (ts : List Tag) : (keepFlags ts).length = ts.length := by simp [keepFlags]

theorem Balanced.keepFlags_eq (balanced : Balanced ts) : keepFlags ts = List.replicate ts.length true := by
  obtain ⟨-, -, all⟩ := balanced.run .start 0
  rw [List.eq_replicate_iff]
  refine ⟨length_keepFlags ts, fun flag member => ?_⟩
  obtain ⟨⟨t, i⟩, inside, rfl⟩ := List.mem_map.mp member
  have bound := List.snd_lt_of_mem_zipIdx inside
  have kept := all i (Nat.zero_le i) (by simpa using bound)
  simpa [Pairing.ofTags] using kept

theorem keep_append (flags : List Bool) (ts us : List Tag) : keep flags (ts ++ us) = keep flags ts ++ keep (flags.drop ts.length) us := by
  induction ts generalizing flags with
  | nil => simp [keep]
  | cons t ts ih =>
    cases flags with
    | nil => simp [keep]
    | cons flag flags =>
      have later := ih flags
      cases flag <;> simpa [keep] using later

theorem tags_settle (flags : List Bool) (ps : List Piece) :
    (Piece.settle flags ps).filterMap Piece.tag? = keep flags (ps.filterMap Piece.tag?) := by
  induction ps generalizing flags with
  | nil => simp [Piece.settle, keep]
  | cons p ps ih =>
    cases p with
    | tag source t =>
      cases flags with
      | nil => simpa [Piece.settle, keep, Piece.tag?, List.filterMap_cons] using ih []
      | cons flag flags => cases flag <;> simpa [Piece.settle, keep, Piece.tag?, List.filterMap_cons] using ih flags
    | text | dropped | stray => simpa [Piece.settle, Piece.tag?, List.filterMap_cons] using ih flags

theorem tags_settleLine (flags : List Bool) (l : Line) : (l.settle flags).tags = keep flags l.tags := by
  cases l with
  | prose source pieces => exact tags_settle flags pieces
  | fenced | replaced => simp [Line.settle, Line.tags, Line.pieces, keep]

theorem tags_settleLines (flags : List Bool) (ls : List Line) :
    (settleLines flags ls).flatMap Line.tags = keep flags (ls.flatMap Line.tags) := by
  induction ls generalizing flags with
  | nil => simp [settleLines, keep]
  | cons l ls ih => rw [settleLines, List.flatMap_cons, List.flatMap_cons, keep_append, tags_settleLine, ih]

theorem settle_replicate {ps : List Piece} {n : Nat} (enough : (ps.filterMap Piece.tag?).length ≤ n) :
    Piece.settle (List.replicate n true) ps = ps := by
  induction ps generalizing n with
  | nil => rfl
  | cons p ps ih =>
    cases p with
    | tag source t =>
      obtain ⟨n, rfl⟩ : ∃ k, n = k + 1 := Nat.exists_eq_succ_of_ne_zero (by simp [Piece.tag?] at enough; omega)
      have later := ih (n := n) (by simpa [Piece.tag?, List.filterMap_cons] using enough)
      simp [Piece.settle, List.replicate_succ, later]
    | text | dropped | stray => simp [Piece.settle, ih (by simpa [Piece.tag?, List.filterMap_cons] using enough)]

theorem settleLines_replicate {ls : List Line} {n : Nat} (enough : (ls.flatMap Line.tags).length ≤ n) :
    settleLines (List.replicate n true) ls = ls := by
  induction ls generalizing n with
  | nil => rfl
  | cons l ls ih =>
    rw [List.flatMap_cons, List.length_append] at enough
    have here : l.settle (List.replicate n true) = l := by
      cases l with
      | prose source pieces => exact congrArg _ (settle_replicate (Nat.le_trans (Nat.le_add_right _ _) enough))
      | fenced | replaced => rfl
    rw [settleLines, here, List.drop_replicate, ih (by omega)]

/-- A tag without a partner leaves its problem behind. -/
theorem settle_of_paired {flags : List Bool} {ps : List Piece} (paired : ∀ p ∈ Piece.settle flags ps, p.problem? ≠ some .unclosedTag) :
    Piece.settle flags ps = ps := by
  induction ps generalizing flags with
  | nil => rfl
  | cons p ps ih =>
    have later : ∀ {p' flags'}, Piece.settle flags (p :: ps) = p' :: Piece.settle flags' ps → Piece.settle flags' ps = ps := by
      intro p' flags' same
      rw [same] at paired
      exact ih fun p member => paired p (List.mem_cons_of_mem _ member)
    cases p with
    | tag source t =>
      by_cases kept : flags.head? = some true
      · have same : Piece.settle flags (.tag source t :: ps) = .tag source t :: Piece.settle flags.tail ps := by simp [Piece.settle, kept]
        rw [same, later same]
      · have same : Piece.settle flags (.tag source t :: ps) = .stray source :: Piece.settle flags.tail ps := by simp [Piece.settle, kept]
        rw [same] at paired
        exact absurd rfl (paired (.stray source) List.mem_cons_self)
    | text | dropped | stray => exact congrArg _ (later rfl)

theorem settleLines_of_paired {flags : List Bool} {ls : List Line}
    (paired : ∀ l ∈ settleLines flags ls, .unclosedTag ∉ l.problems) : settleLines flags ls = ls := by
  induction ls generalizing flags with
  | nil => rfl
  | cons l ls ih =>
    rw [settleLines] at paired ⊢
    rw [ih fun l member => paired l (List.mem_cons_of_mem _ member)]
    cases l with
    | prose source pieces =>
      have here := paired _ List.mem_cons_self
      simp only [Line.settle, Line.problems, List.mem_filterMap, not_exists, not_and] at here
      rw [Line.settle, settle_of_paired here]
    | fenced | replaced => rfl

end NotebookPages.Markup
