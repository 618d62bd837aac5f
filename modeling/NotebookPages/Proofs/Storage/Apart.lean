import NotebookPages.Proofs.Storage.Making

/-! Pages at different places. What becomes of a page does not depend on whether another one was published before, and the two
together change what each of them changes alone. -/

namespace NotebookPages.FileTree

variable {t u v w x : FileTree} {l d : Location} {p base base' : Path} {n m : Text} {content content' : Text} {bytes : Bytes} {keep : Bool}
  {kept : Option Path}

theorem write_of_leads (proper : Path.Proper n) (leads : t.Leads base d) (bytes : Bytes) : t.write (Path.join base n) bytes =
    match textError? (Path.join base n) with
    | some e => .error e
    | none =>
      if Text.utf8Length n > nameLimit then .error .nameTooLong
      else if t.get? (d ++ [n]) = some .directory then .error .isDirectory
      else .ok (t.put (d ++ [n]) (.file bytes)) := by
  rw [write, target_join proper, way_eq_ok_iff.mpr leads]
  cases textError? (Path.join base n) with
  | some e => rfl
  | none =>
    show (if _ then _ else _) >>= _ = if _ then _ else _
    split
    · rfl
    · simp [bind, Except.bind]

theorem locate_of_leads (proper : Path.Proper n) (leads : t.Leads base d) : t.locate (Path.join base n) =
    match textError? (Path.join base n) with
    | some e => .error e
    | none =>
      if Text.utf8Length n > nameLimit then .error .nameTooLong
      else if (t.get? (d ++ [n])).isNone then .error .notFound
      else .ok (d ++ [n]) := by
  rw [locate_join proper, way_eq_ok_iff.mpr leads]
  rfl

/-- Whether a page can be written depends on what is in its place. -/
theorem write_same (proper : Path.Proper n) (leads : t.Leads base d) (leads' : u.Leads base d)
    (page : u.get? (d ++ [n]) = t.get? (d ++ [n])) (bytes : Bytes) :
    (∃ e, t.write (Path.join base n) bytes = .error e ∧ u.write (Path.join base n) bytes = .error e) ∨
      ∃ t' u', t.write (Path.join base n) bytes = .ok t' ∧ u.write (Path.join base n) bytes = .ok u' := by
  rw [write_of_leads proper leads, write_of_leads proper leads', page]
  cases textError? (Path.join base n) with
  | some e => exact Or.inl ⟨e, rfl, rfl⟩
  | none =>
    dsimp only
    split
    next => exact Or.inl ⟨_, rfl, rfl⟩
    next =>
      split
      next => exact Or.inl ⟨_, rfl, rfl⟩
      next => exact Or.inr ⟨_, _, rfl, rfl⟩

theorem entry?_of_leads (proper : Path.Proper n) (leads : t.Leads base d) : t.entry? (Path.join base n) =
    if textError? (Path.join base n) = none ∧ Text.utf8Length n ≤ nameLimit then t.get? (d ++ [n]) else none := by
  rw [ entry?, locate_of_leads proper leads]
  cases textError? (Path.join base n) with
  | some e => rfl
  | none =>
    by_cases long : Text.utf8Length n > nameLimit
    · simp [long, Nat.not_le.mpr long]
    · cases entry : t.get? (d ++ [n]) <;> simp [long, Nat.not_lt.mp long, entry]

/-- What is kept of a page depends on what is in its place. -/
theorem keepBackup_of_entry (t : FileTree) (p : Path) : t.keepBackup p =
    match t.entry? p with
    | none => (t, .ok none)
    | some .directory => (t, .error (.backup (Path.backup p) .notRegular))
    | some (.file old) =>
      match t.write (Path.backup p) old with
      | .ok t => (t, .ok (some (Path.backup p)))
      | .error e => (t, .error (.backup (Path.backup p) e)) := by
  unfold keepBackup contains copy entry?
  cases t.locate p with
  | error e => rfl
  | ok l =>
    obtain ⟨found, entry⟩ : ∃ found, t.get? l = found := ⟨_, rfl⟩
    simp only [bind, Except.bind, entry]
    cases found with
    | none => rfl
    | some kind => cases kind <;> rfl

theorem keepBackup_same (proper : Path.Proper n) (leads : t.Leads base d) (leads' : u.Leads base d)
    (page : u.get? (d ++ [n]) = t.get? (d ++ [n])) (backup : u.get? (backupOf (d ++ [n])) = t.get? (backupOf (d ++ [n]))) :
    (u.keepBackup (Path.join base n)).2 = (t.keepBackup (Path.join base n)).2 := by
  obtain ⟨above, place, names, rooted⟩ := Path.backup_join base proper
  rw [backupOf_append] at backup
  have copied := write_same proper.backup ((Leads.congr names rooted).mpr leads) ((Leads.congr names rooted).mpr leads') backup
  rw [keepBackup_of_entry, keepBackup_of_entry, entry?_of_leads proper leads, entry?_of_leads proper leads', page, place]
  split
  next => rfl
  next => rfl
  next old _ =>
    rcases copied old with ⟨e, first, second⟩ | ⟨t', u', first, second⟩
    · rw [first, second]
    · rw [first, second]

/-- What is kept of a page leaves the page as it is. -/
theorem keepBackup_page (proper : Path.Proper n) (leads : t.Leads base d)
    (result : t.keepBackup (Path.join base n) = (v, .ok kept)) : v.Leads base d ∧ v.get? (d ++ [n]) = t.get? (d ++ [n]) := by
  rcases keepBackup_cases proper result with ⟨-, rfl⟩ | ⟨d', above, old, stands, -, -, -, free, rfl⟩
  · exact ⟨leads, rfl⟩
  · obtain ⟨d'', leads', same⟩ := stands.inside
    obtain ⟨rfl, -⟩ := List.append_inj' same rfl
    obtain rfl := leads.unique leads'
    exact ⟨leads.grows (grows_put (by simp) free old), by rw [get?_put _ _ _ _ (by simp), if_neg (backup_apart d n)]⟩

/-- What becomes of a page, once its directories are there, depends on what is in its place and in that of its backup. -/
theorem finish_same (proper : Path.Proper n) (leads : t.Leads base d) (leads' : u.Leads base d)
    (page : u.get? (d ++ [n]) = t.get? (d ++ [n])) (backup : u.get? (backupOf (d ++ [n])) = t.get? (backupOf (d ++ [n])))
    (keep : Bool) (content : Text) :
    (u.finish keep (Path.join base n) content).2 = (t.finish keep (Path.join base n) content).2 := by
  have written : ∀ {v w : FileTree} (k : Option Path), v.Leads base d → w.Leads base d → w.get? (d ++ [n]) = v.get? (d ++ [n]) →
      (match w.write (Path.join base n) (Text.encode content) with
        | .ok w => (w, .ok k)
        | .error e => (w, .error (PublishError.page (Path.join base n) e)) : FileTree × Except PublishError (Option Path)).2 =
      (match v.write (Path.join base n) (Text.encode content) with
        | .ok v => (v, .ok k)
        | .error e => (v, .error (PublishError.page (Path.join base n) e)) : FileTree × Except PublishError (Option Path)).2 := by
    intro v w k leads leads' page
    rcases write_same proper leads leads' page (Text.encode content) with ⟨e, first, second⟩ | ⟨v', w', first, second⟩
    · rw [first, second]
    · rw [first, second]
  cases keep with
  | false => exact written none leads leads' page
  | true =>
    have same := keepBackup_same proper leads leads' page backup
    rw [finish, finish, if_pos rfl, if_pos rfl]
    generalize before : t.keepBackup (Path.join base n) = ran at same ⊢
    generalize after : u.keepBackup (Path.join base n) = ran' at same ⊢
    obtain ⟨v, r⟩ := ran
    obtain ⟨w, r'⟩ := ran'
    obtain rfl : r' = r := same
    cases r' with
    | error e => rfl
    | ok k =>
      obtain ⟨leads, kept⟩ := keepBackup_page proper leads before
      obtain ⟨leads', kept'⟩ := keepBackup_page proper leads' after
      exact written k leads leads' (by rw [kept, kept', page])

/-- The tree `x` is `v`, with what `w` has changed of `t`. -/
structure Merges (t v w x : FileTree) : Prop where
  same : ∀ {l}, w.get? l = t.get? l → x.get? l = v.get? l
  other : ∀ {l}, w.get? l ≠ t.get? l → x.get? l = w.get? l
  agree : ∀ {l}, v.get? l ≠ t.get? l → w.get? l ≠ t.get? l → v.get? l = w.get? l

/-- What is written is apart from what is made before it. -/
theorem merges_of_step {made : FileTree} (furnished : t.Furnished made) (grows : made.Grows v)
    (step : ∀ l, w.get? l = made.get? l ∧ x.get? l = v.get? l ∨
      x.get? l = w.get? l ∧ v.get? l = made.get? l ∧ made.get? l ≠ some .directory) : Merges t v w x where
  same {l} same := by
    rcases step l with ⟨-, kept⟩ | ⟨taken, before, other⟩
    · exact kept
    · rcases furnished.entry l with as | ⟨-, directory⟩
      · rw [taken, same, before, as]
      · exact absurd directory other
  other {l} changed := by
    rcases step l with ⟨first, second⟩ | ⟨taken, -, -⟩
    · rcases furnished.entry l with as | ⟨-, directory⟩
      · exact absurd (first.trans as) changed
      · rw [second, first, directory, grows.directory directory]
    · exact taken
  agree {l} changed changed' := by
    rcases step l with ⟨first, -⟩ | ⟨-, before, other⟩
    · rcases furnished.entry l with as | ⟨-, directory⟩
      · exact absurd (first.trans as) changed'
      · rw [first, directory, grows.directory directory]
    · rcases furnished.entry l with as | ⟨-, directory⟩
      · exact absurd (before.trans as) changed
      · exact absurd directory other

/-- Where only directories were made, the rest follows. -/
theorem merges_of_made {made : FileTree} (furnished : t.Furnished made) (grows : made.Grows w) : Merges t made w w where
  same {l} same := by
    rcases furnished.entry l with as | ⟨absent, directory⟩
    · rw [same, as]
    · rw [grows.directory directory, absent] at same
      cases same
  other _ := rfl
  agree {l} changed _ := by
    rcases furnished.entry l with as | ⟨-, directory⟩
    · exact absurd as changed
    · rw [directory, grows.directory directory]

/-- A page is written after another one as it is written alone. -/
theorem finish_finish {d' : Location} (replaced : Replaced t v keep base n bytes d) (proper : Path.Proper m)
    (leads : t.Leads base' d') (page : d' ++ [m] ≠ d ++ [n]) (copy : d' ++ [m] ≠ backupOf (d ++ [n]))
    (copied : backupOf (d' ++ [m]) ≠ d ++ [n]) (content : Text) :
    (v.finish keep (Path.join base' m) content).2 = (t.finish keep (Path.join base' m) content).2 ∧
    ∀ l, (t.finish keep (Path.join base' m) content).1.get? l = t.get? l ∧
        (v.finish keep (Path.join base' m) content).1.get? l = v.get? l ∨
      (v.finish keep (Path.join base' m) content).1.get? l = (t.finish keep (Path.join base' m) content).1.get? l ∧
        v.get? l = t.get? l ∧ t.get? l ≠ some .directory := by
  have untouched : v.get? (d' ++ [m]) = t.get? (d' ++ [m]) := replaced.others page copy
  have untouched' : v.get? (backupOf (d' ++ [m])) = t.get? (backupOf (d' ++ [m])) :=
    replaced.others copied fun same => page (backupOf_inj.mp same)
  have leads' := leads.grows replaced.grows
  have same := finish_same proper leads leads' untouched untouched' keep content
  refine ⟨same, fun l => ?_⟩
  generalize before : t.finish keep (Path.join base' m) content = ran at same ⊢
  generalize after : v.finish keep (Path.join base' m) content = ran' at same ⊢
  obtain ⟨w, r⟩ := ran
  obtain ⟨x, r'⟩ := ran'
  obtain rfl : r' = r := same
  cases r' with
  | error e =>
    obtain rfl := finish_error before
    obtain rfl := finish_error after
    exact Or.inl ⟨rfl, rfl⟩
  | ok k =>
    obtain ⟨d₁, alone⟩ := finish_ok proper before
    obtain ⟨d₂, second⟩ := finish_ok proper after
    obtain rfl := alone.leads.unique leads
    obtain rfl := second.leads.unique leads'
    dsimp only
    rw [alone.entry, second.entry]
    split
    next here =>
      subst here
      exact Or.inr ⟨rfl, untouched, alone.free⟩
    next =>
      unfold withBackup
      rw [untouched]
      split
      next old there =>
        rw [get?_put _ _ _ _ (by simp [backupOf_append]), get?_put _ _ _ _ (by simp [backupOf_append])]
        split
        next here =>
          subst here
          exact Or.inr ⟨rfl, untouched', alone.beside rfl old there⟩
        next => exact Or.inl ⟨rfl, rfl⟩
      next => exact Or.inl ⟨rfl, rfl⟩

theorem place_join (t : FileTree) (base : Path) (proper : Path.Proper n) :
    t.place (Path.join base n) = t.place base ++ [n] := by
  obtain ⟨front, opens, whole, names, rooted⟩ := Path.join_opens base
  rw [whole n proper, place_part t opens proper, place, place, start, start, names, rooted]

theorem publish_congr (same : u.prepare p = t.prepare p) (keep : Bool) (content : Text) :
    u.publish keep p content = t.publish keep p content := by
  rw [publish, publish, same]

theorem publish_of_prepare_error {made : FileTree} {e : PublishError} (prepared : t.prepare p = (made, .error e)) (keep : Bool)
    (content : Text) : t.publish keep p content = (made, .error e) := by
  rw [publish, prepared]

theorem grows_of_publish {made : FileTree} {r : Except PublishError Unit} (prepared : t.prepare (Path.join base n) = (made, r))
    (proper : Path.Proper n) (keep : Bool) (content : Text) : made.Grows (t.publish keep (Path.join base n) content).1 := by
  generalize result : t.publish keep (Path.join base n) content = ran
  obtain ⟨u, r'⟩ := ran
  cases r' with
  | error e =>
    obtain rfl := publish_error result
    rw [prepared]
    exact .refl made
  | ok k =>
    obtain ⟨t', d, prepared', replaced⟩ := publish_join_ok proper result
    obtain rfl : made = t' := (Prod.mk.inj (prepared.symm.trans prepared')).1
    exact replaced.grows

/-- Two pages that do not stand in each other's way. -/
structure Apart (t : FileTree) (base : Path) (n : Text) (base' : Path) (m : Text) : Prop where
  proper : Path.Proper n
  proper' : Path.Proper m
  straight : Path.Straight base
  straight' : Path.Straight base'
  places : t.place (Path.join base' m) ≠ t.place (Path.join base n)
  copy : m ≠ n ++ ".backup"
  copied : m ++ ".backup" ≠ n
  /-- They are written into one directory, or no directory has to be made for them. -/
  shared : base' = base ∨ (∃ d, t.Leads base d) ∧ ∃ d, t.Leads base' d

namespace Apart

/-- The directories are the same ones for both pages, and the second page finds them made. -/
theorem prepared (apart : t.Apart base n base' m) (nested : t.Nested) : ∃ made r r', t.prepare (Path.join base n) = (made, r) ∧
    t.prepare (Path.join base' m) = (made, r') ∧ made.prepare (Path.join base' m) = (made, r') ∧
    ∀ {v d}, made.Leads base d → made.Grows v → v.prepare (Path.join base' m) = (v, r') ∧ ∃ d', made.Leads base' d' := by
  obtain ⟨r', found⟩ := prepare_of_leads base' apart.proper'
  rcases apart.shared with rfl | ⟨⟨d, leads⟩, d', leads'⟩
  · have again := prepare_again nested apart.straight apart.proper apart.proper'
    have beside : t.prepare (Path.join base' m) = t.prepare (Path.join base' n) := prepare_beside apart.proper apart.proper'
    generalize t.prepare (Path.join base' n) = ran at *
    obtain ⟨made, r⟩ := ran
    refine ⟨made, r, r, rfl, beside, again, fun leads grows => ⟨?_, _, leads⟩⟩
    obtain rfl : r' = r := congrArg Prod.snd ((found leads).symm.trans again)
    exact found (leads.grows grows)
  · obtain ⟨r, first⟩ := prepare_of_leads base apart.proper
    exact ⟨t, r, r', first leads, found leads', found leads', fun _ grows => ⟨found (leads'.grows grows), d', leads'⟩⟩

/-- A page that is published after another one is published as it is alone. -/
theorem publish (apart : t.Apart base n base' m) (nested : t.Nested) (keep : Bool) (content content' : Text) :
    ((t.publish keep (Path.join base n) content).1.publish keep (Path.join base' m) content').2 =
        (t.publish keep (Path.join base' m) content').2 ∧
      t.Merges (t.publish keep (Path.join base n) content).1 (t.publish keep (Path.join base' m) content').1
        ((t.publish keep (Path.join base n) content).1.publish keep (Path.join base' m) content').1 := by
  obtain ⟨made, r, r', first, second, again, later⟩ := apart.prepared nested
  have furnished : t.Furnished made := by simpa [first] using furnished_prepare t (Path.join base n)
  generalize result : t.publish keep (Path.join base n) content = ran
  obtain ⟨v, published⟩ := ran
  cases published with
  | error e =>
    obtain rfl : v = made := by rw [publish_error result, first]
    dsimp only
    rw [publish_congr (again.trans second.symm)]
    exact ⟨rfl, merges_of_made furnished (grows_of_publish second apart.proper' keep content')⟩
  | ok k =>
    obtain ⟨t', d, first', replaced⟩ := publish_join_ok apart.proper result
    obtain rfl : made = t' := (Prod.mk.inj (first.symm.trans first')).1
    obtain ⟨kept, d', leads⟩ := later replaced.leads replaced.grows
    cases r' with
    | error e =>
      dsimp only
      rw [publish_of_prepare_error second, publish_of_prepare_error kept]
      exact ⟨rfl, merges_of_step furnished replaced.grows fun _ => Or.inl ⟨rfl, rfl⟩⟩
    | ok done =>
      have here : d = t.place base := (place_of_leads apart.straight replaced.leads).trans (place_of_current furnished.current base)
      have there : d' = t.place base' := (place_of_leads apart.straight' leads).trans (place_of_current furnished.current base')
      have page : d' ++ [m] ≠ d ++ [n] := by
        rw [here, there, ← place_join t base apart.proper, ← place_join t base' apart.proper']
        exact apart.places
      have copy : d' ++ [m] ≠ backupOf (d ++ [n]) := by
        rw [backupOf_append]
        exact fun same => apart.copy (List.singleton_inj.mp (List.append_inj' same rfl).2)
      have copied : backupOf (d' ++ [m]) ≠ d ++ [n] := by
        rw [backupOf_append]
        exact fun same => apart.copied (List.singleton_inj.mp (List.append_inj' same rfl).2)
      obtain ⟨same, step⟩ := finish_finish replaced apart.proper' leads page copy copied content'
      dsimp only
      rw [publish_of_prepare second, publish_of_prepare kept]
      exact ⟨same, merges_of_step furnished replaced.grows step⟩

end Apart

end NotebookPages.FileTree
