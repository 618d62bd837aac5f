import NotebookPages.Proofs.Storage.Nesting

/-! Files that a page is written over. Whether a page may be written is decided before directories are made for it, so it can go
over a file that its path leads to only then. A path that leads straight down never does. -/

namespace NotebookPages.FileTree

variable {t u : FileTree} {l m d : Location} {p above : Path} {content : Text} {old : Bytes} {keep : Bool}
  {r : Except PublishError (Option Path)}

/-- A path leads to nothing, and once directories are made for it, to a file that was there before. -/
structure Uncovers (t : FileTree) (p : Path) (l : Location) : Prop where
  absent : t.contains p = false
  found : (t.prepare p).1.locate p = .ok l
  file : ∃ old, t.get? l = some (.file old)

theorem contains_iff : t.contains p = true ↔ ∃ l, t.locate p = .ok l ∧ (t.get? l).isSome = true := by
  rw [contains, entry?]
  cases t.locate p <;> simp

theorem Uncovers.not_locate (uncovers : t.Uncovers p l) : t.locate p ≠ .ok l := by
  intro found
  obtain ⟨old, there⟩ := uncovers.file
  have absent := uncovers.absent
  rw [contains_iff.mpr ⟨l, found, by rw [there]; rfl⟩] at absent
  cases absent

/-- Where the directory is there, none is made. -/
theorem Uncovers.not_leads (uncovers : t.Uncovers p l) (parent : Path.parent? p = some above) : ¬ t.Leads above d := by
  intro leads
  have found := uncovers.found
  obtain ⟨r, same⟩ := prepare_of_parent parent
  rw [same leads] at found
  exact uncovers.not_locate found

theorem Uncovers.not_straight (uncovers : t.Uncovers p l) (nested : t.Nested) : ¬ Path.Straight p := by
  intro straight
  obtain ⟨old, there⟩ := uncovers.file
  exact uncovers.not_locate (nested.locate (furnished_prepare t p).grows straight (by rw [there]; rfl) uncovers.found)

/-- What becomes of a file when a page is published: it stays as it is, or it is the page that is written over, or the copy of
that page. -/
theorem publish_file (result : t.publish keep p content = (u, r)) (there : t.get? l = some (.file old)) :
    u.get? l = some (.file old) ∨ ∃ d n, Path.Proper n ∧ (t.prepare p).1.locate p = .ok (d ++ [n]) ∧
      (∃ old, t.get? (d ++ [n]) = some (.file old)) ∧
      (l = d ++ [n] ∧ u.locate p = .ok l ∨ l = backupOf (d ++ [n]) ∧ keep = true ∧ u.locate (Path.backup p) = .ok l) := by
  have furnished := furnished_prepare t p
  cases r with
  | error e =>
    rw [publish_error result]
    exact Or.inl (furnished.keeps there)
  | ok kept =>
    obtain ⟨base, n, t', d, rfl, prepared, replaced⟩ := publish_ok result
    rw [prepared] at furnished ⊢
    have before := furnished.keeps there
    have place : ∀ old, t'.get? (d ++ [n]) = some (.file old) → t'.locate (Path.join base n) = .ok (d ++ [n]) := fun old file =>
      (locate_join_iff replaced.proper).mpr ⟨replaced.stands, by rw [file]; rfl⟩
    by_cases page : l = d ++ [n]
    · subst page
      exact Or.inr ⟨d, n, replaced.proper, place old before, ⟨old, there⟩, Or.inl ⟨rfl, replaced.located⟩⟩
    · by_cases copy : l = backupOf (d ++ [n]) ∧ keep = true ∧ ∃ old, t'.get? (d ++ [n]) = some (.file old)
      · obtain ⟨rfl, asked, old', file⟩ := copy
        exact Or.inr ⟨d, n, replaced.proper, place old' file, ⟨old', furnished.file_iff.mp file⟩,
          Or.inr ⟨rfl, asked, replaced.backup asked old' file⟩⟩
      · refine Or.inl ?_
        rw [replaced.entry, if_neg page]
        unfold withBackup
        split
        next old' file =>
          rw [get?_put _ _ _ _ (by simp [backupOf_append]), if_neg, before]
          exact fun same => copy ⟨same, rfl, old', file⟩
        next => exact before

/-- Where the path of the page leads to nothing, only what it uncovers is changed. -/
theorem publish_absent (absent : t.contains p = false) (result : t.publish keep p content = (u, r))
    (there : t.get? l = some (.file old)) :
    u.get? l = some (.file old) ∨ ∃ m, t.Uncovers p m ∧ (l = m ∨ keep = true ∧ l = backupOf m) := by
  rcases publish_file result there with kept | ⟨d, n, -, found, file, change⟩
  · exact Or.inl kept
  · refine Or.inr ⟨d ++ [n], ⟨absent, found, file⟩, ?_⟩
    rcases change with ⟨same, -⟩ | ⟨same, asked, -⟩
    · exact Or.inl same
    · exact Or.inr ⟨asked, same⟩

theorem absent_of_refusal {source : Path} (free : t.refusal? false source p = none) : t.contains p = false := by
  unfold refusal? at free
  split at free
  next => cases free
  next => simpa using free

/-- Where a page may be written, it is not its source that is written over, unless it comes to light for that. -/
theorem uncovers_of_refusal {force : Bool} {source : Path} (free : t.refusal? force source p = none) (given : t.locate source = .ok l)
    (there : t.get? l = some (.file old)) (found : (t.prepare p).1.locate p = .ok l) : t.Uncovers p l := by
  refine ⟨?_, found, old, there⟩
  rw [← Bool.not_eq_true]
  intro here
  obtain ⟨m, place, -⟩ := contains_iff.mp here
  obtain rfl : m = l := Except.ok.inj (((furnished_prepare t p).grows.locate place).symm.trans found)
  rw [refusal?, sameFile, given, place] at free
  simp at free

end NotebookPages.FileTree
