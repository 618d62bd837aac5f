import NotebookPages.Proofs.Storage.Publishing

/-! Pages that are written over what they were. A page that is there already needs no directories, so nothing but itself and its
backup is changed, and all is found as before. -/

namespace NotebookPages.FileTree

variable {t u : FileTree} {l : Location} {p : Path} {content : Text} {old : Bytes} {kept : Option Path}

/-- What a page has changed that was published over a file. -/
theorem publish_over (found : t.locate p = .ok l) (file : t.get? l = some (.file old))
    (result : t.publish true p content = (u, .ok kept)) : (∃ d n, l = d ++ [n]) ∧ t.get? (backupOf l) ≠ some .directory ∧
      u = (t.put (backupOf l) (.file old)).put l (.file (Text.encode content)) ∧ u.locate (Path.backup p) = .ok (backupOf l) := by
  obtain ⟨base, n, t', d, rfl, prepared, replaced⟩ := publish_ok result
  obtain rfl : t' = t := by
    rw [← prepare_of_file found file, prepared]
  obtain rfl := ((locate_join_iff replaced.proper).mp found).1.unique replaced.stands
  refine ⟨⟨d, n, rfl⟩, replaced.beside rfl old file, ?_, replaced.backup rfl old file⟩
  rw [replaced.result, withBackup_file file]

theorem walk_of_later {s : Location} {parts : List Text}
    (directories : ∀ m, u.get? m = some .directory → t.get? m = some .directory) (there : (t.get? l).isSome = true)
    (found : u.walk s parts = .ok l) : t.walk s parts = .ok l := by
  induction parts generalizing s with
  | nil => exact found
  | cons part parts ih =>
    obtain ⟨directory, ahead, rest⟩ := walk_cons_iff.mp found
    refine walk_cons_iff.mpr ⟨directories s directory, ?_, ih rest⟩
    rcases ahead with idle | up | ⟨short, -⟩
    · exact Or.inl idle
    · exact Or.inr (Or.inl up)
    · by_cases dots : Path.isIdle part = true ∨ part = ".."
      · exact dots.imp_right Or.inl
      · rw [not_or] at dots
        have down : next s part = s ++ [part] := by rw [next, if_neg dots.1, if_neg dots.2]
        refine Or.inr (Or.inr ⟨short, ?_⟩)
        rw [down] at rest
        cases parts with
        | nil =>
          obtain rfl := Except.ok.inj rest
          exact there
        | cons part' parts =>
          rw [directories _ (walk_cons_iff.mp rest).1]
          rfl

/-- Where no directory is new, something that was there was found in the same way. -/
theorem locate_of_later (current : u.current = t.current)
    (directories : ∀ m, u.get? m = some .directory → t.get? m = some .directory) (there : (t.get? l).isSome = true)
    (found : u.locate p = .ok l) : t.locate p = .ok l := by
  rw [locate] at found ⊢
  split at found
  next => cases found
  next =>
    rw [start, current] at found
    exact walk_of_later directories there found

end NotebookPages.FileTree
