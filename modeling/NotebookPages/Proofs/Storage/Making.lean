import NotebookPages.Proofs.Path.Parents
import NotebookPages.Proofs.Storage.Nesting

/-! Directories that are made for several pages. They are made only on the way to the pages, and to make them again does nothing
more and ends in the same way, even if not all of them can be made. -/

namespace NotebookPages.FileTree

variable {t u v : FileTree} {l d s : Location} {p q base above front : Path} {n : Text} {parts : List Text} {e : StorageError}
  {r : Option StorageError}

theorem makeDirectory_part (opens : Path.Opens front) (proper : Path.Proper n) : t.makeDirectory (front ++ n) =
    match textError? (front ++ n) with
    | some e => .error e
    | none => t.way front >>= fun d =>
      if Text.utf8Length n > nameLimit then .error .nameTooLong
      else if (t.get? (d ++ [n])).isSome then .error .alreadyThere
      else .ok (t.put (d ++ [n]) .directory) := by
  rw [makeDirectory, target_part opens proper]
  cases textError? (front ++ n) with
  | some e => rfl
  | none =>
    cases t.way front with
    | error e => rfl
    | ok d =>
      show (if _ then _ else _) >>= _ = if _ then _ else _
      split <;> rfl

theorem way_part (opens : Path.Opens front) (proper : Path.Proper n) : t.way (front ++ n) =
    t.way front >>= fun d =>
      if Text.utf8Length n > nameLimit then .error .nameTooLong
      else if (t.get? (d ++ [n])).isNone then .error .notFound
      else if t.get? (d ++ [n]) ≠ some .directory then .error .notDirectory
      else .ok (d ++ [n]) := by
  have up : ¬ n = ".." := proper.up
  rw [way, way, start_part opens proper, Path.names_opens opens proper.whole proper.notIdle, List.append_assoc, walk_append,
    ← walk_bind_directory]
  congr 1
  funext d
  rw [List.singleton_append, walk, proper.notIdle, if_neg Bool.false_ne_true, if_neg up, walk]
  split
  next => rfl
  next => split <;> [rfl; split <;> [rfl; split <;> rfl]]

theorem way_of_names_nil (bare : Path.names p = []) : t.way p = .error .notDirectory ∨ t.way p = .ok (t.start p) := by
  rw [way, bare, List.nil_append, walk]
  split
  · exact Or.inl rfl
  · exact Or.inr rfl

theorem makeChain_of_error {rest : List Path} (refused : t.makeDirectory p = .error e) (other : e ≠ .notFound) (fails : ∀ d, t.way p ≠ .ok d) :
    t.makeChain (p :: rest) = (t, some e) := by
  have absent : t.isDirectory p = false := by
    rw [← Bool.not_eq_true]
    intro there
    obtain ⟨d, leads⟩ := leads_of_isDirectory there
    exact fails d (way_eq_ok_iff.mpr leads)
  simp only [makeChain, refused, absent, Bool.false_eq_true, if_false]

/-- What is left when the directories in a chain have been made, of which the first is that of a path, or when one of them could
not be made. -/
structure Made (t u : FileTree) (p : Path) (chain : List Path) (r : Option StorageError) : Prop where
  again : u.makeChain chain = (u, r)
  leads : r = none → p ≠ [] → ∃ d, u.Leads p d
  /-- If no file stands in the place of the path, the way to it ends for the reason that the last directory could not be made. -/
  fails : ∀ e e', r = some e → u.way p = .error e' → e' = .notFound ∨ e' = e ∨ ∃ old, t.get? (t.place p) = some (.file old)

theorem made_of_way {rest : List Path} (opens : Path.Opens front) (proper : Path.Proper n) (readable : textError? (front ++ n) = none)
    (found : t.way front = .ok d) (place : t.place (front ++ n) = d ++ [n])
    (result : t.makeChain ((front ++ n) :: rest) = (u, r)) : Made t u (front ++ n) ((front ++ n) :: rest) r := by
  have made := makeDirectory_part (t := t) opens proper
  have way := way_part (t := t) opens proper
  simp only [readable, found, bind, Except.bind] at made way
  split at made
  next long =>
    rw [if_pos long] at way
    rw [makeChain_of_error made (by simp) (by simp [way])] at result
    obtain ⟨rfl, rfl⟩ := Prod.mk.inj result
    refine ⟨makeChain_of_error made (by simp) (by simp [way]), by simp, ?_⟩
    rintro e e' ⟨⟩ ended
    exact Or.inr (Or.inl (by simpa [eq_comm] using way.symm.trans ended))
  next short =>
    rw [if_neg short] at way
    split at made
    next there =>
      rw [if_neg (by simpa using Option.isSome_iff_ne_none.mp there)] at way
      split at way
      next other =>
        rw [makeChain_of_error made (by simp) (by simp [way])] at result
        obtain ⟨rfl, rfl⟩ := Prod.mk.inj result
        refine ⟨makeChain_of_error made (by simp) (by simp [way]), by simp, fun e e' _ _ => Or.inr (Or.inr ?_)⟩
        rw [place]
        cases entry : t.get? (d ++ [n]) with
        | none => simp [entry] at there
        | some kind =>
          cases kind with
          | directory => exact absurd entry other
          | file old => exact ⟨old, rfl⟩
      next directory =>
        have leads := way_eq_ok_iff.mp way
        rw [makeChain_of_leads readable leads] at result
        obtain ⟨rfl, rfl⟩ := Prod.mk.inj result
        exact ⟨makeChain_of_leads readable leads, fun _ _ => ⟨_, leads⟩, by simp⟩
    next absent =>
      simp only [makeChain, made, Prod.mk.injEq] at result
      obtain ⟨rfl, rfl⟩ := result
      have grows := (furnished_makeDirectory made).grows
      have leads : (t.put (d ++ [n]) .directory).Leads (front ++ n) (d ++ [n]) := by
        refine way_eq_ok_iff.mp ?_
        have above := way_eq_ok_iff.mpr ((way_eq_ok_iff.mp found).grows grows)
        have entry : (t.put (d ++ [n]) .directory).get? (d ++ [n]) = some .directory := by
          rw [get?_put _ _ _ _ (by simp), if_pos rfl]
        rw [way_part opens proper, above]
        simp [bind, Except.bind, short, entry]
      exact ⟨makeChain_of_leads readable leads, fun _ _ => ⟨_, leads⟩, by simp⟩

theorem made_here (t : FileTree) (result : t.makeDirectories ['.'] = (u, r)) : Made t u ['.'] (Path.ancestors ['.']) r := by
  rcases way_of_names_nil (t := t) (p := ['.']) rfl with fails | found
  · have other : t.get? (t.start ['.']) ≠ some .directory := by
      intro directory
      rw [way_eq_ok_iff.mpr ⟨rfl, directory⟩] at fails
      cases fails
    have refused : t.makeDirectory ['.'] = .error .notDirectory := by
      have target : t.target ['.'] = .error .notDirectory := by
        show (if t.get? (t.start ['.']) ≠ some .directory then _ else _) = _
        rw [if_pos other]
      rw [makeDirectory, target]
      rfl
    have same : t.makeChain [['.']] = (t, some .notDirectory) := makeChain_of_error refused (by simp) (by simp [fails])
    obtain ⟨rfl, rfl⟩ := Prod.mk.inj (same.symm.trans result)
    refine ⟨same, by simp, ?_⟩
    rintro e e' ⟨⟩ ended
    exact Or.inr (Or.inl (by simpa [eq_comm] using fails.symm.trans ended))
  · have leads := way_eq_ok_iff.mp found
    have same : t.makeChain [['.']] = (t, none) := makeChain_of_leads (by decide) leads
    obtain ⟨rfl, rfl⟩ := Prod.mk.inj (same.symm.trans result)
    exact ⟨same, fun _ _ => ⟨_, leads⟩, by simp⟩

theorem furnished_makeDirectories (t : FileTree) (p : Path) : t.Furnished (t.makeDirectories p).1 :=
  makeChain_invariant _ t (.refl t) fun _ _ _ _ before made => before.trans (furnished_makeDirectory made)

/-- What is missing on the way to somewhere is one of its first parts. -/
theorem walk_notFound (straight : ['.', '.'] ∉ parts) (missing : t.walk s parts = .error .notFound) :
    ∃ way rest, parts.filter (!Path.isIdle ·) = way ++ rest ∧ t.get? (s ++ way) = none := by
  induction parts generalizing s with
  | nil => cases missing
  | cons part parts ih =>
    obtain ⟨other, straight⟩ : part ≠ ['.', '.'] ∧ ['.', '.'] ∉ parts := by simpa [eq_comm] using straight
    rw [walk] at missing
    split at missing
    next => cases missing
    next =>
      split at missing
      next idle =>
        obtain ⟨way, rest, whole, none⟩ := ih straight missing
        exact ⟨way, rest, by rw [List.filter_cons_of_neg (by simp [idle]), whole], none⟩
      next named =>
        rw [if_neg (show ¬ part = ".." from other)] at missing
        rw [List.filter_cons_of_pos (by simp [named])]
        split at missing
        next => cases missing
        next =>
          split at missing
          next none => exact ⟨[part], _, rfl, Option.isNone_iff_eq_none.mp none⟩
          next =>
            obtain ⟨way, rest, whole, none⟩ := ih straight missing
            exact ⟨part :: way, rest, by rw [whole]; rfl, by simpa using none⟩

theorem names_front (opens : Path.Opens front) (proper : Path.Proper n) : Path.names (front ++ n) = Path.names front ++ [n] :=
  Path.names_opens opens proper.whole proper.notIdle

theorem place_part (t : FileTree) (opens : Path.Opens front) (proper : Path.Proper n) :
    t.place (front ++ n) = t.place front ++ [n] := by
  rw [place, place, start_part opens proper, names_front opens proper, List.append_assoc]

theorem filter_names (p : Path) : (Path.names p).filter (!Path.isIdle ·) = Path.names p := by
  rw [Path.names, List.filter_filter]
  simp

theorem place_of_leads (straight : Path.Straight p) (leads : t.Leads p d) : d = t.place p := by
  rw [walk_straight straight leads.1, filter_names, place]

theorem place_of_current (current : u.current = t.current) (p : Path) : u.place p = t.place p := by
  rw [place, place, start, start, current]

theorem Nested.way_ne_notFound (nested : t.Nested) (straight : Path.Straight p) (there : (t.get? (t.place p)).isSome = true) :
    t.way p ≠ .error .notFound := by
  intro missing
  have same : (Path.names p ++ [[]]).filter (!Path.isIdle ·) = Path.names p := by
    rw [List.filter_append, filter_names]
    exact List.append_nil _
  have down : ['.', '.'] ∉ Path.names p ++ [[]] := fun inside =>
    (List.mem_append.mp inside).elim straight (by simp)
  obtain ⟨way, rest, whole, none⟩ := walk_notFound down missing
  rw [same] at whole
  rw [place, whole, ← List.append_assoc] at there
  have first := nested.isSome_above there
  rw [none] at first
  cases first

theorem textError?_of_prefix (shorter : q <+: p) (named : q ≠ []) (readable : textError? p = none) : textError? q = none := by
  obtain ⟨rest, rfl⟩ := shorter
  unfold textError? at readable ⊢
  split at readable
  next => cases readable
  next plain =>
    split at readable
    next => cases readable
    next =>
      split at readable
      next => cases readable
      next short =>
        rw [Text.utf8Length_append] at short
        rw [if_neg, if_neg (by simpa using named), if_neg (by omega)]
        simp only [List.contains_eq_mem, decide_eq_true_eq] at plain ⊢
        exact fun inside => plain (List.mem_append_left rest inside)

/-- A directory on the way could not be made, and so the next one cannot be made either. -/
theorem Made.failed (opens : Path.Opens front) (proper : Path.Proper n) (nested : t.Nested) (straight : Path.Straight front)
    (readable : textError? (front ++ n) = none) (names : Path.names above = Path.names front)
    (rooted : Path.isAbsolute above = Path.isAbsolute front) (legible : textError? above = none) (named : above ≠ [])
    (missing : t.way front = .error .notFound) (made : Made t u above (Path.ancestors above) (some e)) :
    Made t u (front ++ n) ((front ++ n) :: Path.ancestors above) (some e) := by
  have again := made.again
  have same : u.way above = u.way front := way_congr names rooted
  cases found : u.way front with
  | ok d =>
    obtain ⟨rest, first⟩ := ancestors_cons named
    rw [first, makeChain_of_leads legible (way_eq_ok_iff.mp (same.trans found))] at again
    simp at again
  | error e' =>
    have refused : u.makeDirectory (front ++ n) = .error e' := by
      rw [makeDirectory_part opens proper, readable, found]
      rfl
    have way : u.way (front ++ n) = .error e' := by
      rw [way_part opens proper, found]
      rfl
    have known : e' = .notFound ∨ e' = e := by
      rcases made.fails e e' rfl (same.trans found) with missing' | reason | ⟨old, file⟩
      · exact Or.inl missing'
      · exact Or.inr reason
      · have there : (t.get? (t.place front)).isSome = true := by
          rw [place, start, ← names, ← rooted, ← start, ← place, file]
          rfl
        exact absurd missing (nested.way_ne_notFound straight there)
    refine ⟨?_, by simp, ?_⟩
    · by_cases missing' : e' = .notFound
      · subst missing'
        simp only [makeChain, refused, again]
      · obtain rfl := known.resolve_left missing'
        exact makeChain_of_error refused missing' (by simp [way])
    · rintro _ e₁ ⟨⟩ ended
      obtain rfl : e' = e₁ := by simpa using way.symm.trans ended
      exact known.imp_right Or.inl

/-- The directories on the way have been made, and the next one is left to be made. -/
theorem Made.next {rest : List Path} (opens : Path.Opens front) (proper : Path.Proper n) (straight : Path.Straight front)
    (readable : textError? (front ++ n) = none) (furnished : t.Furnished v) (leads : v.Leads front d)
    (result : v.makeChain ((front ++ n) :: rest) = (u, r)) : Made t u (front ++ n) ((front ++ n) :: rest) r := by
  have place : v.place (front ++ n) = d ++ [n] := by
    rw [place_part v opens proper, ← place_of_leads straight leads]
  have later := made_of_way opens proper readable (way_eq_ok_iff.mpr leads) place result
  refine ⟨later.again, later.leads, fun e e' fails ended => ?_⟩
  refine (later.fails e e' fails ended).imp_right (Or.imp_right ?_)
  rintro ⟨old, file⟩
  exact ⟨old, by rw [← place_of_current furnished.current]; exact furnished.file_iff.mp file⟩

theorem makeDirectory_ne_notFound (opens : Path.Opens front) (proper : Path.Proper n) (readable : textError? (front ++ n) = none)
    (leads : t.Leads front d) : t.makeDirectory (front ++ n) ≠ .error .notFound := by
  rw [makeDirectory_part opens proper, readable, way_eq_ok_iff.mpr leads]
  simp only [bind, Except.bind]
  split
  · simp
  · split <;> simp

/-- Where the directory itself is missing, the ones on the way to it are made first. -/
theorem made_of_missing (opens : Path.Opens front) (proper : Path.Proper n) (nested : t.Nested) (straight : Path.Straight front)
    (readable : textError? (front ++ n) = none) (names : Path.names above = Path.names front)
    (rooted : Path.isAbsolute above = Path.isAbsolute front) (shorter : above <+: front) (missing : t.way front = .error .notFound)
    (before : ∀ {u r}, (above ≠ [] → textError? above = none) → t.makeDirectories above = (u, r) → Made t u above (Path.ancestors above) r)
    (result : t.makeChain ((front ++ n) :: Path.ancestors above) = (u, r)) :
    Made t u (front ++ n) ((front ++ n) :: Path.ancestors above) r := by
  have refused : t.makeDirectory (front ++ n) = .error .notFound := by
    rw [makeDirectory_part opens proper, readable, missing]
    rfl
  have named : above ≠ [] := by
    rintro rfl
    have same : t.way [] = t.way front := way_congr names rooted
    rcases way_of_names_nil (t := t) (p := []) rfl with fails | found
    · simp [same, missing] at fails
    · simp [same, missing] at found
  have legible : textError? above = none := textError?_of_prefix (shorter.trans (List.prefix_append front n)) named readable
  have furnished := furnished_makeDirectories t above
  generalize step : t.makeDirectories above = ran at furnished
  obtain ⟨v, r'⟩ := ran
  have made := before (fun _ => legible) step
  rw [makeDirectories] at step
  cases r' with
  | some e =>
    simp only [makeChain, refused, step, Prod.mk.injEq] at result
    obtain ⟨rfl, rfl⟩ := result
    exact made.failed opens proper nested straight readable names rooted legible named missing
  | none =>
    obtain ⟨d, leads⟩ := made.leads rfl named
    have leads : v.Leads front d := (Leads.congr names rooted).mp leads
    refine Made.next opens proper straight readable furnished leads ?_
    have other := makeDirectory_ne_notFound opens proper readable leads
    simp only [makeChain, refused, step] at result
    rw [makeChain]
    cases made' : v.makeDirectory (front ++ n) with
    | ok w => simpa [made'] using result
    | error e =>
      rw [made'] at other result
      cases e with
      | notFound => exact absurd rfl other
      | _ => exact result

theorem made_makeDirectories (reached : Path.Reached p) (nested : t.Nested) (straight : Path.Straight p)
    (readable : p ≠ [] → textError? p = none) (result : t.makeDirectories p = (u, r)) : Made t u p (Path.ancestors p) r := by
  induction reached generalizing t u r with
  | empty =>
    obtain ⟨rfl, rfl⟩ := Prod.mk.inj result
    exact ⟨rfl, fun _ named => absurd rfl named, by simp⟩
  | root =>
    have leads : t.Leads ['/'] [] := ⟨rfl, rfl⟩
    have same : t.makeChain [['/']] = (t, none) := makeChain_of_leads (readable (by simp)) leads
    obtain ⟨rfl, rfl⟩ := Prod.mk.inj (same.symm.trans result)
    exact ⟨same, fun _ _ => ⟨[], leads⟩, by simp⟩
  | here => exact made_here t result
  | @part front n opens solid reached ih =>
    have whole := Path.names_opens opens solid.whole solid.notIdle
    rw [Path.Straight, whole, List.mem_append, not_or] at straight
    have proper : Path.Proper n := ⟨solid, fun up => straight.2 (by simp [up])⟩
    have readable : textError? (front ++ n) = none := readable (by simp [solid.some])
    obtain ⟨names, rooted⟩ := Path.trimIdle_keeps front.length front
    have shorter := Path.trimIdle_isPrefix front.length front
    rw [makeDirectories, Path.ancestors_part opens solid] at result
    rw [Path.ancestors_part opens solid]
    generalize Path.trimIdle front.length front = above at *
    cases found : t.way front with
    | ok d =>
      refine made_of_way opens proper readable found ?_ result
      rw [place_part t opens proper, ← place_of_leads straight.1 (way_eq_ok_iff.mp found)]
    | error e =>
      by_cases missing : e = .notFound
      · subst missing
        exact made_of_missing opens proper nested straight.1 readable names rooted shorter found
          (fun legible step => ih nested (by rw [Path.Straight, names]; exact straight.1) legible step) result
      · have refused : t.makeDirectory (front ++ n) = .error e := by
          rw [makeDirectory_part opens proper, readable, found]
          rfl
        have way : t.way (front ++ n) = .error e := by
          rw [way_part opens proper, found]
          rfl
        have same : t.makeChain ((front ++ n) :: Path.ancestors above) = (t, some e) :=
          makeChain_of_error refused missing (by simp [way])
        obtain ⟨rfl, rfl⟩ := Prod.mk.inj (same.symm.trans result)
        refine ⟨same, by simp, ?_⟩
        rintro _ e₁ ⟨⟩ ended
        exact Or.inr (Or.inl (by simpa [eq_comm] using way.symm.trans ended))

/-- To make directories again does nothing more, and it ends in the same way. -/
theorem makeDirectories_again (reached : Path.Reached p) (nested : t.Nested) (straight : Path.Straight p) :
    (t.makeDirectories p).1.makeDirectories p = t.makeDirectories p := by
  cases readable : textError? p with
  | none => exact (made_makeDirectories reached nested straight (fun _ => readable) rfl).again
  | some e =>
    by_cases named : p = []
    · rw [named]
      rfl
    · obtain ⟨rest, chain⟩ := ancestors_cons named
      rw [makeDirectories, chain, makeChain_unreadable named readable, makeDirectories, chain, makeChain_unreadable named readable]

theorem prepare_again {m : Text} (nested : t.Nested) (straight : Path.Straight base) (proper : Path.Proper n) (proper' : Path.Proper m) :
    (t.prepare (Path.join base n)).1.prepare (Path.join base m) = t.prepare (Path.join base n) := by
  obtain ⟨above, found, names, -⟩ := Path.parent?_join base proper
  have same := (Path.parent?_join_congr base proper' proper).trans found
  have again := makeDirectories_again (t := t) (Path.reached_parent? base proper found) nested (by rwa [Path.Straight, names])
  unfold prepare
  rw [found, same]
  by_cases named : above = []
  · subst named
    rfl
  · have given : (some above).filter (!·.isEmpty) = some above := by simp [named]
    simp only [given]
    generalize t.makeDirectories above = ran at again ⊢
    obtain ⟨u, r⟩ := ran
    cases r with
    | none => simp only [again]
    | some e => simp only [again]

/-- The first directories of a page are made for every page beside it. -/
theorem prepare_beside {m : Text} (proper : Path.Proper n) (proper' : Path.Proper m) :
    t.prepare (Path.join base m) = t.prepare (Path.join base n) := by
  unfold prepare
  rw [Path.parent?_join_congr base proper' proper]

/-- Directories are made only on the way to a page. -/
theorem prepare_elsewhere (straight : Path.Straight base) (proper : Path.Proper n) (off : ¬ l <+: t.place base) :
    (t.prepare (Path.join base n)).1.get? l = t.get? l := by
  refine (prepare_invariant (P := fun v => v.current = t.current ∧ v.get? l = t.get? l) t _ ⟨rfl, rfl⟩ ?_).2
  rintro above found q inside v w ⟨current, same⟩ made
  obtain ⟨above', found', names, rooted⟩ := Path.parent?_join base proper
  obtain rfl := Option.some.inj (found.symm.trans found')
  obtain ⟨fewer, rooted'⟩ := Path.names_ancestors (Path.reached_parent? base proper found) inside
  obtain ⟨d, n', front, -, -, rfl, walked, whole⟩ := makeDirectory_ok made
  refine ⟨current, ?_⟩
  rw [get?_put _ _ _ _ (by simp), if_neg, same]
  rintro rfl
  refine off ?_
  have down : ['.', '.'] ∉ front := by
    intro up
    refine straight ?_
    rw [← names]
    refine fewer.subset ?_
    rw [whole]
    exact List.mem_append_left _ (List.mem_filter.mpr ⟨up, rfl⟩)
  rw [walk_straight down walked, List.append_assoc, ← whole, place, start, start, rooted', rooted, current, ← names]
  exact (List.prefix_append_right_inj _).mpr fewer

end NotebookPages.FileTree
