import NotebookPages.Proofs.Storage.Directories

/-! What publishing a page changes: directories are made, what the page replaces is copied, and the page is written. Apart from the
directories, a published page changes its own file and the backup beside it, and a page that fails to be published changes
nothing. -/

namespace NotebookPages.FileTree

variable {t t' u : FileTree} {l m d : Location} {p base : Path} {n : Text} {content : Text} {bytes old : Bytes} {keep : Bool}
  {kept : Option Path} {e : PublishError} {r : Except PublishError (Option Path)}

theorem contains_join (proper : Path.Proper n) (stands : t.Stands base n l) :
    t.contains (Path.join base n) = (t.get? l).isSome := by
  rw [contains, entry?]
  cases there : (t.get? l).isSome with
  | true => rw [(locate_join_iff proper).mpr ⟨stands, there⟩, there]
  | false =>
    split
    next m found =>
      obtain ⟨stands', there'⟩ := (locate_join_iff proper).mp found
      rw [stands.unique stands', there'] at there
      cases there
    next => rfl

theorem copy_cases {source : Path} (copied : t.copy source p = .ok t') :
    ∃ l old, t.locate source = .ok l ∧ t.get? l = some (.file old) ∧ t.write p old = .ok t' := by
  obtain ⟨l, found, copied⟩ := Except.bind_eq_ok_iff.mp copied
  split at copied
  next old there => exact ⟨l, old, found, there, copied⟩
  next => cases copied

/-- What is kept when a page is about to be written: nothing if there is none, else a copy beside it. -/
theorem keepBackup_cases (proper : Path.Proper n) (result : t.keepBackup (Path.join base n) = (t', .ok kept)) :
    (t.contains (Path.join base n) = false ∧ t' = t) ∨
    ∃ d above old, t.Stands base n (d ++ [n]) ∧ t.get? (d ++ [n]) = some (.file old) ∧
      Path.backup (Path.join base n) = Path.join above (n ++ ".backup") ∧ t.Stands above (n ++ ".backup") (d ++ [n ++ ".backup"]) ∧
      t.get? (d ++ [n ++ ".backup"]) ≠ some .directory ∧ t' = t.put (d ++ [n ++ ".backup"]) (.file old) := by
  unfold keepBackup at result
  split at result
  next =>
    dsimp only at result
    split at result
    next copied =>
      obtain ⟨rfl, -⟩ := Prod.mk.inj result
      obtain ⟨above, backup, same⟩ := Path.backup_join base proper
      obtain ⟨l, old, found, there, written⟩ := copy_cases copied
      rw [backup] at written
      obtain ⟨m, beside, free, rfl⟩ := (write_join_iff proper.backup).mp written
      obtain ⟨stands, -⟩ := (locate_join_iff proper).mp found
      obtain ⟨d, leads, rfl⟩ := stands.inside
      obtain ⟨d', leads', rfl⟩ := beside.inside
      obtain rfl := ((Leads.congr same.1 same.2).mp leads').unique leads
      exact Or.inr ⟨d', above, old, stands, there, backup, beside, free, rfl⟩
    next => simp at result
  next absent =>
    obtain ⟨rfl, -⟩ := Prod.mk.inj result
    exact Or.inl ⟨by simpa using absent, rfl⟩

theorem keepBackup_error (result : t.keepBackup p = (t', .error e)) : t' = t := by
  unfold keepBackup at result
  split at result
  · dsimp only at result
    split at result
    next => simp at result
    next => exact (Prod.mk.inj result).1.symm
  · simp at result

theorem backup_apart (d : Location) (n : Text) : d ++ [n] ≠ d ++ [n ++ ".backup"] := by
  intro same
  simpa using congrArg List.length (List.singleton_inj.mp (List.append_cancel_left same))

/-- Where the backup of a file is. -/
def backupOf (l : Location) : Location := l.dropLast ++ [l.getLast?.getD [] ++ ".backup"]

theorem backupOf_append (d : Location) (n : Text) : backupOf (d ++ [n]) = d ++ [n ++ ".backup"] := by
  simp [backupOf]

theorem backupOf_inj {e : Location} {k : Text} : backupOf (d ++ [n]) = backupOf (e ++ [k]) ↔ d ++ [n] = e ++ [k] := by
  rw [backupOf_append, backupOf_append]
  simp

/-- A name that no slashes follow is a proper one, and all that stands before it is the directory. -/
theorem proper_of_target (found : t.target p = .ok (.child d n false)) : ∃ base, Path.Proper n ∧ p = Path.join base n := by
  rw [target] at found
  split at found
  next => cases found
  next =>
    dsimp only at found
    split at found
    next => cases found
    next last shape =>
      obtain ⟨d', -, found⟩ := Except.bind_eq_ok_iff.mp found
      split at found
      next => cases found
      next =>
        split at found
        next => cases found
        next dots =>
          split at found
          next => cases found
          next =>
            obtain ⟨-, rfl, slashes⟩ : d' = d ∧ last = n ∧ _ := by simpa using found
            -- Nothing is dropped at the end, so the last part is the name.
            have bare : (Text.split (· == '/') p).reverse.dropWhile List.isEmpty = (Text.split (· == '/') p).reverse :=
              (List.dropWhile_suffix _).eq_of_length_le (by simpa using slashes)
            have stop := List.head?_dropWhile_not List.isEmpty (Text.split (· == '/') p).reverse
            rw [bare] at shape stop
            obtain ⟨front, m, rfl, opens, whole⟩ := Path.exists_opens p
            obtain ⟨parts, parted, -⟩ := Path.split_opens opens whole
            rw [parted] at shape stop
            obtain rfl : m = last := by simpa using shape
            rw [not_or] at dots
            have proper : Path.Proper m := ⟨⟨whole, by simpa using stop, dots.1⟩, dots.2⟩
            exact ⟨front, proper, (Path.join_front opens proper).symm⟩

/-- Only a name within a directory can be written to. -/
theorem proper_of_write (written : t.write p bytes = .ok u) : ∃ base n, Path.Proper n ∧ p = Path.join base n := by
  obtain ⟨place, found, written⟩ := Except.bind_eq_ok_iff.mp written
  cases place with
  | existing => cases written
  | child d n slash =>
    cases slash with
    | true => simp at written
    | false =>
      obtain ⟨base, proper, whole⟩ := proper_of_target found
      exact ⟨base, n, proper, whole⟩

/-- A file that a copy was made of has a proper name. -/
theorem proper_of_keepBackup (there : t.contains p = true) (result : t.keepBackup p = (u, .ok kept)) :
    ∃ base n, Path.Proper n ∧ p = Path.join base n := by
  rw [keepBackup, if_pos there] at result
  dsimp only at result
  split at result
  next copied =>
    obtain ⟨l, old, found, file, written⟩ := copy_cases copied
    obtain ⟨front, m, -, -, rfl, opens, solid, -⟩ := exists_parent found file
    by_cases up : m = ['.', '.']
    · -- The backup of dots would lie within the file that they lead to.
      subst up
      have within : Path.backup (front ++ ['.', '.']) = Path.join (front ++ ['.', '.']) ".backup" := by
        rw [Path.backup, Path.withFileName, Path.fileName?_up opens]
        rfl
      rw [within] at written
      obtain ⟨m, stands, -⟩ := (write_join_iff ⟨⟨by decide, by decide, by decide⟩, by decide⟩).mp written
      obtain ⟨d, leads, -⟩ := stands.inside
      obtain ⟨walked, directory⟩ := (leads_iff rfl).mpr leads
      rw [locate] at found
      split at found
      next => cases found
      next =>
        obtain rfl := Except.ok.inj (walked.symm.trans found)
        rw [directory] at file
        cases file
    · have proper : Path.Proper m := ⟨solid, up⟩
      exact ⟨front, m, proper, (Path.join_front opens proper).symm⟩
  next => simp at result

/-- A copy of the file at a location, if there is one and a copy is asked for. -/
def withBackup (t : FileTree) (keep : Bool) (l : Location) : FileTree :=
  match keep, t.get? l with
  | true, some (.file old) => t.put (backupOf l) (.file old)
  | _, _ => t

theorem withBackup_file (there : t.get? l = some (.file old)) : t.withBackup true l = t.put (backupOf l) (.file old) := by
  simp only [withBackup, there]

theorem withBackup_none (absent : t.get? l = none) (keep : Bool) : t.withBackup keep l = t := by
  cases keep <;> simp only [withBackup, absent]

theorem get?_withBackup (t : FileTree) (keep : Bool) (other : m ≠ backupOf (d ++ [n])) :
    (t.withBackup keep (d ++ [n])).get? m = t.get? m := by
  unfold withBackup
  split
  next => rw [get?_put _ _ _ _ (by simp [backupOf_append]), if_neg other]
  next => rfl

theorem page_ne_backupOf (d : Location) (n : Text) : d ++ [n] ≠ backupOf (d ++ [n]) := by
  rw [backupOf_append]
  exact backup_apart d n

/-- A page is put in its place, after a copy of what was there if one is asked for. -/
structure Replaced (t u : FileTree) (keep : Bool) (base : Path) (n : Text) (bytes : Bytes) (d : Location) : Prop where
  proper : Path.Proper n
  leads : t.Leads base d
  stands : t.Stands base n (d ++ [n])
  free : t.get? (d ++ [n]) ≠ some .directory
  beside : keep = true → ∀ old, t.get? (d ++ [n]) = some (.file old) → t.get? (backupOf (d ++ [n])) ≠ some .directory
  result : u = (t.withBackup keep (d ++ [n])).put (d ++ [n]) (.file bytes)
  backup : keep = true → ∀ old, t.get? (d ++ [n]) = some (.file old) →
    u.locate (Path.backup (Path.join base n)) = .ok (backupOf (d ++ [n]))

namespace Replaced

theorem entry (replaced : Replaced t u keep base n bytes d) (m : Location) :
    u.get? m = if m = d ++ [n] then some (.file bytes) else (t.withBackup keep (d ++ [n])).get? m := by
  rw [replaced.result, get?_put _ _ _ _ (by simp)]

/-- All but the page and its copy stays as it was. -/
theorem others (replaced : Replaced t u keep base n bytes d) (page : m ≠ d ++ [n]) (backup : m ≠ backupOf (d ++ [n])) :
    u.get? m = t.get? m := by
  rw [replaced.entry, if_neg page, get?_withBackup t keep backup]

theorem grows (replaced : Replaced t u keep base n bytes d) : t.Grows u := by
  have copied : t.Grows (t.withBackup keep (d ++ [n])) := by
    have beside := replaced.beside
    unfold withBackup
    split
    next old there => exact grows_put (by simp [backupOf_append]) (beside rfl old there) old
    next => exact .refl t
  have page := (get?_withBackup t keep (page_ne_backupOf d n)).trans_ne replaced.free
  rw [replaced.result]
  exact copied.trans (grows_put (by simp) page bytes)

theorem located (replaced : Replaced t u keep base n bytes d) : u.locate (Path.join base n) = .ok (d ++ [n]) := by
  refine (locate_join_iff replaced.proper).mpr ⟨replaced.stands.grows replaced.grows, ?_⟩
  rw [replaced.entry, if_pos rfl]
  rfl

end Replaced

/-- What is left to do when the directories of a page are there. -/
def finish (t : FileTree) (keep : Bool) (p : Path) (content : Text) : FileTree × Except PublishError (Option Path) :=
  match if keep then t.keepBackup p else (t, .ok none) with
  | (t, .error e) => (t, .error e)
  | (t, .ok kept) =>
    match t.write p (Text.encode content) with
    | .ok t => (t, .ok kept)
    | .error e => (t, .error (.page p e))

theorem publish_of_prepare (prepared : t.prepare p = (t', .ok ())) : t.publish keep p content = t'.finish keep p content := by
  rw [publish, prepared]
  rfl

/-- What is done last leaves nothing behind if it fails: when a copy is made, the page can be written. -/
theorem finish_error (result : t.finish keep p content = (u, .error e)) : u = t := by
  unfold finish at result
  split at result
  next failed =>
    obtain ⟨rfl, -⟩ := Prod.mk.inj result
    cases keep with
    | false => simp at failed
    | true => exact keepBackup_error failed
  next v kept done =>
    split at result
    next => simp at result
    next failed =>
      obtain ⟨rfl, -⟩ := Prod.mk.inj result
      cases keep with
      | false => exact (Prod.mk.inj done).1.symm
      | true =>
        cases there : t.contains p with
        | false =>
          rw [if_pos rfl, keepBackup, there] at done
          exact (Prod.mk.inj done).1.symm
        | true =>
          obtain ⟨base, n, proper, rfl⟩ := proper_of_keepBackup there done
          rcases keepBackup_cases proper done with ⟨absent, -⟩ | ⟨d, above, old, stands, file, -, beside, free, rfl⟩
          · rw [absent] at there
            cases there
          · have page : (t.put (d ++ [n ++ ".backup"]) (.file old)).get? (d ++ [n]) ≠ some .directory := by
              rw [get?_put _ _ _ _ beside.below, if_neg (backup_apart d n), file]
              simp
            rw [(write_join_iff proper).mpr ⟨_, stands.grows (grows_put beside.below free old), page, rfl⟩] at failed
            cases failed

/-- A page that fails to be published leaves nothing but directories behind. -/
theorem publish_error (result : t.publish keep p content = (u, .error e)) : u = (t.prepare p).1 := by
  generalize prepared : t.prepare p = ran
  obtain ⟨t', r⟩ := ran
  cases r with
  | error e =>
    rw [publish, prepared] at result
    exact (Prod.mk.inj result).1.symm
  | ok done =>
    rw [publish_of_prepare prepared] at result
    exact finish_error result

theorem finish_ok (proper : Path.Proper n) (result : t.finish keep (Path.join base n) content = (u, .ok kept)) :
    ∃ d, Replaced t u keep base n (Text.encode content) d := by
  unfold finish at result
  split at result
  next => simp at result
  next v k done =>
    split at result
    next written =>
      obtain ⟨rfl, -⟩ := Prod.mk.inj result
      obtain ⟨l, stands, free, rfl⟩ := (write_join_iff proper).mp written
      cases keep with
      | false =>
        obtain rfl : t = v := (Prod.mk.inj done).1
        obtain ⟨d, leads, rfl⟩ := stands.inside
        exact ⟨d, proper, leads, stands, free, by simp, rfl, by simp⟩
      | true =>
        rcases keepBackup_cases proper done with ⟨absent, rfl⟩ | ⟨d, above, old, stands', there, backup, beside, free', rfl⟩
        · -- Nothing was there to be copied.
          obtain ⟨d, leads, rfl⟩ := stands.inside
          have none : v.get? (d ++ [n]) = none := by simpa [contains_join proper stands] using absent
          exact ⟨d, proper, leads, stands, free, by simp [none], by rw [withBackup_none none], by simp [none]⟩
        · have copied := grows_put beside.below free' old
          obtain rfl := stands.unique (stands'.grows copied)
          obtain ⟨d', leads, same⟩ := stands'.inside
          obtain ⟨rfl, -⟩ := List.append_inj' same rfl
          have written := grows_put stands.below free (Text.encode content)
          refine ⟨d, proper, leads, stands', by simp [there], fun _ _ _ => ?_, ?_, fun _ _ _ => ?_⟩
          · rwa [backupOf_append]
          · rw [withBackup_file there, backupOf_append]
          · rw [backup, backupOf_append]
            refine written.locate ((locate_join_iff proper.backup).mpr ⟨beside.grows copied, ?_⟩)
            rw [get?_put _ _ _ _ beside.below, if_pos rfl]
            rfl
    next => simp at result

theorem publish_join_ok (proper : Path.Proper n) (result : t.publish keep (Path.join base n) content = (u, .ok kept)) :
    ∃ t' d, t.prepare (Path.join base n) = (t', .ok ()) ∧ Replaced t' u keep base n (Text.encode content) d := by
  generalize prepared : t.prepare (Path.join base n) = ran
  obtain ⟨t', r⟩ := ran
  cases r with
  | error e =>
    rw [publish, prepared] at result
    simp at result
  | ok done =>
    rw [publish_of_prepare prepared] at result
    obtain ⟨d, replaced⟩ := finish_ok proper result
    exact ⟨t', d, rfl, replaced⟩

/-- What a published page has changed, once its directories are there. -/
theorem publish_ok (result : t.publish keep p content = (u, .ok kept)) : ∃ base n t' d, p = Path.join base n ∧
    t.prepare p = (t', .ok ()) ∧ Replaced t' u keep base n (Text.encode content) d := by
  have named : ∃ base n, Path.Proper n ∧ p = Path.join base n := by
    unfold publish at result
    split at result
    next => simp at result
    next =>
      split at result
      next => simp at result
      next =>
        split at result
        next written => exact proper_of_write written
        next => simp at result
  obtain ⟨base, n, proper, rfl⟩ := named
  obtain ⟨t', d, prepared, replaced⟩ := publish_join_ok proper result
  exact ⟨base, n, t', d, rfl, prepared, replaced⟩

/-- A page is published in the directory at `d`. -/
structure Published (t t' : FileTree) (keep : Bool) (p : Path) (n : Text) (content : Bytes) (d : Location) : Prop where
  grows : t.Grows t'
  located : t'.locate p = .ok (d ++ [n])
  written : t'.get? (d ++ [n]) = some (.file content)
  others : ∀ l, l ≠ d ++ [n] → l ≠ d ++ [n ++ ".backup"] → t'.get? l = t.get? l ∨ t.get? l = none ∧ t'.get? l = some .directory
  kept : keep = true → ∀ old, t.get? (d ++ [n]) = some (.file old) →
    t'.locate (Path.backup p) = .ok (d ++ [n ++ ".backup"]) ∧ t'.get? (d ++ [n ++ ".backup"]) = some (.file old)

/-- Other files stay as they were. -/
theorem Published.keeps (published : Published t t' keep p n bytes d) (page : l ≠ d ++ [n])
    (backup : l ≠ d ++ [n ++ ".backup"]) (there : t.get? l = some (.file old)) : t'.get? l = some (.file old) := by
  rcases published.others l page backup with same | ⟨none, -⟩
  · rw [same, there]
  · rw [none] at there
    cases there

theorem published_of_replaced (furnished : t.Furnished t') (replaced : Replaced t' u keep base n bytes d) :
    Published t u keep (Path.join base n) n bytes d where
  grows := furnished.grows.trans replaced.grows
  located := replaced.located
  written := by rw [replaced.entry, if_pos rfl]
  others l page backup := by
    rw [← backupOf_append] at backup
    rw [replaced.others page backup]
    exact furnished.entry l
  kept asked old there := by
    subst asked
    have file := furnished.keeps there
    refine ⟨?_, ?_⟩
    · rw [← backupOf_append]
      exact replaced.backup rfl old file
    · rw [replaced.entry, if_neg (backup_apart d n).symm, withBackup_file file, backupOf_append, get?_put _ _ _ _ (by simp),
        if_pos rfl]

/-- A page is published, or nothing but the directories on the way is left behind. -/
theorem publish_cases (proper : Path.Proper n) (result : t.publish keep (Path.join base n) content = (t', r)) :
    (∃ e, r = .error e) ∧ t' = (t.prepare (Path.join base n)).1 ∨
    (∃ kept, r = .ok kept) ∧ ∃ d, Published t t' keep (Path.join base n) n (Text.encode content) d := by
  cases r with
  | error e => exact Or.inl ⟨⟨e, rfl⟩, publish_error result⟩
  | ok kept =>
    have furnished := furnished_prepare t (Path.join base n)
    obtain ⟨v, d, prepared, replaced⟩ := publish_join_ok proper result
    rw [prepared] at furnished
    exact Or.inr ⟨⟨kept, rfl⟩, d, published_of_replaced furnished replaced⟩

end NotebookPages.FileTree
