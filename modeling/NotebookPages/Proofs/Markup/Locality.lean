import NotebookPages.Proofs.Markup.FencedBlocks
import NotebookPages.Proofs.Markup.Stability

/-! A pass over two texts, one behind the other. Where the first leaves no fence open and all its tags have partners, nothing of it
reaches into the second: no tag is pending there, so the tags of the second are paired as if they stood alone. -/

namespace NotebookPages

/-- No fence is held after the lines if none is said to be left open by them. -/
theorem Fence.after_eq_none_of_openLine? {held : Option Fence} {opened : Option Nat} {number : Nat} {lines : List Text}
    (start : opened = none → held = none) (closed : openLine? held opened number lines = none) : after held lines = none := by
  induction lines generalizing held opened number with
  | nil => exact start closed
  | cons line lines ih =>
    rw [after_cons]
    rw [openLine?] at closed
    split at closed
    next outside =>
      rw [outside]
      exact ih (fun _ => rfl) closed
    next fence inside =>
      rw [inside]
      refine ih ?_ closed
      intro unopened
      split at unopened
      next some =>
        rw [start unopened] at some
        cases some
      next => cases unopened

theorem Report.ofProblems_append (ps qs : List Problem) : ofProblems (ps ++ qs) = ofProblems ps + ofProblems qs := by
  simp only [ofProblems, List.count_append]
  rfl

namespace Markup

variable {rules : Rules} {held : Option Fence} {a b : Text} {ts us : List Tag} {ls : List Line} {flags : List Bool}

theorem readLines_append (rules : Rules) (held : Option Fence) (xs ys : List Text) :
    readLines rules held (xs ++ ys) = readLines rules held xs ++ readLines rules (Fence.after held xs) ys := by
  induction xs generalizing held with
  | nil => rfl
  | cons x xs ih =>
    rw [List.cons_append, readLines, readLines, ih, Fence.after_cons]
    rfl

theorem settleLines_append (flags : List Bool) (xs ys : List Line) :
    settleLines flags (xs ++ ys) = settleLines flags xs ++ settleLines (flags.drop (xs.flatMap Line.tags).length) ys := by
  induction xs generalizing flags with
  | nil => rfl
  | cons x xs ih =>
    rw [List.cons_append, settleLines, settleLines, ih, List.flatMap_cons, List.length_append, List.drop_drop]
    rfl

theorem settle_append_flags {ps : List Piece} (enough : (ps.filterMap Piece.tag?).length ≤ flags.length) (more : List Bool) :
    Piece.settle (flags ++ more) ps = Piece.settle flags ps := by
  induction ps generalizing flags with
  | nil => simp [Piece.settle]
  | cons p ps ih =>
    cases p with
    | tag source t =>
      cases flags with
      | nil => simp [Piece.tag?] at enough
      | cons flag flags =>
        have later : Piece.settle (flags ++ more) ps = Piece.settle flags ps := by
          apply ih
          simpa [Piece.tag?, List.filterMap_cons] using enough
        simp [Piece.settle, later]
    | text | dropped | stray => simp [Piece.settle, ih (by simpa [Piece.tag?, List.filterMap_cons] using enough)]

/-- Flags beyond the last tag make no difference. -/
theorem settleLines_append_flags (enough : (ls.flatMap Line.tags).length ≤ flags.length) (more : List Bool) :
    settleLines (flags ++ more) ls = settleLines flags ls := by
  induction ls generalizing flags with
  | nil => rfl
  | cons l ls ih =>
    rw [List.flatMap_cons, List.length_append] at enough
    have here : l.settle (flags ++ more) = l.settle flags := by
      cases l with
      | prose source pieces =>
        have own : (pieces.filterMap Piece.tag?).length ≤ flags.length := Nat.le_trans (Nat.le_add_right _ _) enough
        rw [Line.settle, Line.settle, settle_append_flags own]
      | fenced | replaced => rfl
    rw [settleLines, settleLines, here, List.drop_append_of_le_length (by omega), ih (by rw [List.length_drop]; omega)]

namespace Pairing

/-- The same pairing behind `n` tags that were all kept. -/
structure Shifted (n : Nat) (p p' : Pairing) : Prop where
  pending : p'.pending = p.pending.map fun entry => (entry.1 + n, entry.2)
  kept : ∀ i, i + n ∈ p'.kept ↔ i ∈ p.kept
  before : ∀ i < n, i ∈ p'.kept

variable {n : Nat} {p p' : Pairing}

theorem Shifted.step (shifted : Shifted n p p') (t : Tag) (number : Nat) : Shifted n (p.step t number) (p'.step t (number + n)) := by
  unfold Pairing.step
  split
  next =>
    refine ⟨shifted.pending, ?_, fun i low => List.mem_cons_of_mem _ (shifted.before i low)⟩
    intro i
    simp only [List.mem_cons, shifted.kept, Nat.add_right_cancel_iff]
  next => exact ⟨by rw [shifted.pending]; rfl, shifted.kept, shifted.before⟩
  next =>
    have found : p'.pending.dropWhile (·.2 != t.name) =
        (p.pending.dropWhile (·.2 != t.name)).map fun entry => (entry.1 + n, entry.2) := by
      rw [shifted.pending, List.dropWhile_map]
      rfl
    rw [found]
    cases p.pending.dropWhile (·.2 != t.name) with
    | nil => exact shifted
    | cons partner outer =>
      refine ⟨rfl, ?_, fun i low => List.mem_cons_of_mem _ (List.mem_cons_of_mem _ (shifted.before i low))⟩
      intro i
      simp only [List.map_cons, List.mem_cons, shifted.kept, Nat.add_right_cancel_iff]

theorem Shifted.run (shifted : Shifted n p p') (ts : List Tag) (number : Nat) :
    Shifted n ((ts.zipIdx number).foldl (fun p (tag, i) => p.step tag i) p)
      ((ts.zipIdx (number + n)).foldl (fun p (tag, i) => p.step tag i) p') := by
  induction ts generalizing number p p' with
  | nil => exact shifted
  | cons t ts ih =>
    have later := ih (shifted.step t number) (number + 1)
    rw [Nat.add_right_comm] at later
    simpa only [List.zipIdx_cons, List.foldl_cons] using later

end Pairing

/-- Behind balanced tags no tag is pending, so the others are paired as if they stood alone. -/
theorem Balanced.shifted (balanced : Balanced ts) (us : List Tag) :
    Pairing.Shifted ts.length (Pairing.ofTags us) (Pairing.ofTags (ts ++ us)) := by
  have distinct : (([] ++ ts.zipIdx).map Prod.snd).Nodup := by
    rw [List.nil_append, List.zipIdx_map_snd]
    exact List.nodup_range'
  have valid := Pairing.valid_start.run distinct
  obtain ⟨pending, -, all⟩ := balanced.run .start 0
  have start : Pairing.Shifted ts.length .start (Pairing.ofTags ts) := by
    refine ⟨pending, ?_, fun i low => all i (Nat.zero_le i) (by omega)⟩
    intro i
    refine ⟨?_, fun member => by cases member⟩
    intro member
    obtain ⟨⟨t, j⟩, inside, same⟩ := valid.known _ member
    have bound := List.snd_lt_of_mem_zipIdx inside
    simp only at same
    omega
  rw [Pairing.ofTags, Pairing.ofTags, List.zipIdx_append, List.foldl_append]
  exact start.run us 0

theorem Balanced.keepFlags_append (balanced : Balanced ts) (us : List Tag) :
    keepFlags (ts ++ us) = List.replicate ts.length true ++ keepFlags us := by
  have shifted := balanced.shifted us
  rw [keepFlags, List.zipIdx_append, List.map_append]
  congr 1
  · rw [List.eq_replicate_iff]
    refine ⟨by simp, ?_⟩
    intro flag member
    obtain ⟨⟨t, i⟩, inside, rfl⟩ := List.mem_map.mp member
    have bound := List.snd_lt_of_mem_zipIdx inside
    simpa using shifted.before i (by omega)
  · rw [List.zipIdx_eq_map_add, List.map_map, keepFlags]
    apply List.map_congr_left
    intro entry member
    have same := shifted.kept entry.2
    rw [Nat.add_comm] at same
    simpa using same

theorem lines_of_unremoved (paired : (Pass.run rules a).report.removedTags = 0) :
    (Pass.run rules a).lines = readLines rules none (Text.splitLines a) := by
  apply settleLines_of_paired
  intro l member unpaired
  have none : Problem.unclosedTag ∉ (Pass.run rules a).problems := List.count_eq_zero.mp paired
  exact none (List.mem_flatMap_of_mem member unpaired)

/-- Where a text closes its fences and its tags all have partners, what follows it is read and paired as if it stood alone. -/
theorem lines_run_append (closed : (Pass.run rules a).openFence = none) (paired : (Pass.run rules a).report.removedTags = 0) (b : Text) :
    (Pass.run rules (a ++ '\n' :: b)).lines = (Pass.run rules a).lines ++ (Pass.run rules b).lines := by
  have outside : Fence.after none (Text.splitLines a) = none := Fence.after_eq_none_of_openLine? (fun _ => rfl) closed
  have unchanged := lines_of_unremoved paired
  have balanced := balanced_run rules a
  rw [unchanged] at balanced ⊢
  simp only [Pass.run, Text.splitLines_append, readLines_append, outside, List.flatMap_append, balanced.keepFlags_append]
  generalize readLines rules none (Text.splitLines a) = first
  have counted : (List.replicate (first.flatMap Line.tags).length true).length = (first.flatMap Line.tags).length := List.length_replicate
  rw [settleLines_append, settleLines_append_flags (Nat.le_of_eq counted.symm), settleLines_replicate (Nat.le_refl _),
    List.drop_append_of_le_length (Nat.le_of_eq counted.symm), List.drop_replicate, Nat.sub_self]
  rfl

/-- A pass over two texts, one behind the other, is the passes over each, if the first text closes its fences and none of its tags is
removed: the repaired texts are joined and the counts of changes added. -/
theorem sanitizeReport_append (closed : (Pass.run rules a).openFence = none) (paired : (Pass.run rules a).report.removedTags = 0)
    (b : Text) : sanitizeReport rules (a ++ '\n' :: b) =
      ((sanitizeReport rules a).1 ++ '\n' :: (sanitizeReport rules b).1, (sanitizeReport rules a).2 + (sanitizeReport rules b).2) := by
  have lines := lines_run_append closed paired b
  have some (t : Text) : (Pass.run rules t).lines.map (Line.render rules.dialect) ≠ [] := by
    simpa using (passed_run rules t).ne_nil (Text.splitLines_ne_nil t)
  have output : (Pass.run rules (a ++ '\n' :: b)).output rules.dialect =
      (Pass.run rules a).output rules.dialect ++ '\n' :: (Pass.run rules b).output rules.dialect := by
    rw [Pass.output, lines, List.map_append, Text.joinWith_append _ (some a) (some b)]
    rfl
  have report : (Pass.run rules (a ++ '\n' :: b)).report = (Pass.run rules a).report + (Pass.run rules b).report := by
    rw [Pass.report, Pass.problems, lines, List.flatMap_append, Report.ofProblems_append]
    rfl
  rw [sanitizeReport, output, report]
  rfl

theorem sanitizeReport_append_listing :
    (Pass.run {} "<b>\n```\n\x7b<i>\n```\n</b> \x7bx\x7d").openFence = none ∧
    (Pass.run {} "<b>\n```\n\x7b<i>\n```\n</b> \x7bx\x7d").report.removedTags = 0 ∧
    sanitizeReport {} ("<b>\n```\n\x7b<i>\n```\n</b> \x7bx\x7d" ++ '\n' :: ("</b> \x7by\x7d" : Text)) =
      ((sanitizeReport {} "<b>\n```\n\x7b<i>\n```\n</b> \x7bx\x7d").1 ++ '\n' :: (sanitizeReport {} "</b> \x7by\x7d").1,
        (sanitizeReport {} "<b>\n```\n\x7b<i>\n```\n</b> \x7bx\x7d").2 + (sanitizeReport {} "</b> \x7by\x7d").2) :=
  ⟨by decide +kernel, by decide +kernel, sanitizeReport_append (by decide +kernel) (by decide +kernel) "</b> \x7by\x7d"⟩

end Markup
end NotebookPages
