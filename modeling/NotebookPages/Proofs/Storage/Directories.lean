import NotebookPages.Proofs.Storage.Places
import NotebookPages.Storage.Publish

/-! Directories on the way to a page. To make them leaves everything else as it is, and none is made where the directory of the
page is there. -/

namespace NotebookPages.FileTree

variable {t t' u : FileTree} {l d : Location} {p base : Path} {n : Text} {old : Bytes}

/-- Directories are added, and nothing else is changed. -/
structure Furnished (t t' : FileTree) : Prop where
  current : t'.current = t.current
  entry : ∀ l, t'.get? l = t.get? l ∨ t.get? l = none ∧ t'.get? l = some .directory

theorem Furnished.refl (t : FileTree) : t.Furnished t := ⟨rfl, fun _ => Or.inl rfl⟩

theorem Furnished.trans (first : t.Furnished t') (second : t'.Furnished u) : t.Furnished u where
  current := second.current.trans first.current
  entry l := by
    rcases second.entry l with same | ⟨none, directory⟩
    · rw [same]
      exact first.entry l
    · rcases first.entry l with same | ⟨-, there⟩
      · exact Or.inr ⟨same ▸ none, directory⟩
      · rw [there] at none
        cases none

theorem Furnished.keeps (furnished : t.Furnished t') {e : Entry} (there : t.get? l = some e) : t'.get? l = some e := by
  rcases furnished.entry l with same | ⟨none, -⟩
  · rw [same, there]
  · rw [none] at there
    cases there

theorem Furnished.grows (furnished : t.Furnished t') : t.Grows t' :=
  ⟨furnished.current, furnished.keeps, fun there => ⟨_, furnished.keeps there⟩⟩

theorem Furnished.file_iff (furnished : t.Furnished t') : t'.get? l = some (.file old) ↔ t.get? l = some (.file old) := by
  rcases furnished.entry l with same | ⟨none, directory⟩
  · rw [same]
  · simp [none, directory]

/-- The names on the way to what is found, and the directory that it lies in. -/
theorem target_child {slash : Bool} (found : t.target p = .ok (.child d n slash)) :
    ∃ front, t.walk (t.start p) front = .ok d ∧ t.get? d = some .directory ∧ Path.names p = front.filter (!Path.isIdle ·) ++ [n] := by
  rw [target] at found
  split at found
  next => cases found
  next =>
    obtain ⟨slashes, whole, all, stop⟩ := Text.dropEnd_split List.isEmpty (Text.split (· == '/') p)
    have empty : slashes.filter (!Path.isIdle ·) = [] :=
      List.filter_eq_nil_iff.mpr fun part inside => by simp [Path.isIdle, all part inside]
    dsimp only at found
    generalize ((Text.split (· == '/') p).reverse.dropWhile List.isEmpty).reverse = bare at whole stop found
    split at found
    next => cases found
    next last shape =>
      obtain ⟨d', walked, found⟩ := Except.bind_eq_ok_iff.mp found
      split at found
      next => cases found
      next directory =>
        split at found
        next => cases found
        next dots =>
          split at found
          next => cases found
          next =>
            obtain ⟨rfl, rfl, -⟩ : d' = d ∧ last = n ∧ _ := by simpa using found
            refine ⟨bare.dropLast, walked, not_not.mp directory, ?_⟩
            have solid : Path.isIdle last = false := by
              rw [not_or] at dots
              exact Bool.or_eq_false_iff.mpr ⟨stop last shape, beq_eq_false_iff_ne.mpr dots.1⟩
            rw [Path.names, whole, List.filter_append, empty, List.append_nil, ← List.dropLast_append_getLast? last shape,
              List.filter_append, List.dropLast_concat]
            simp [solid]

/-- A directory is made where nothing was, in one that is there. -/
theorem makeDirectory_ok (made : t.makeDirectory p = .ok t') : ∃ d n front, t.get? d = some .directory ∧ t.get? (d ++ [n]) = none ∧
    t' = t.put (d ++ [n]) .directory ∧ t.walk (t.start p) front = .ok d ∧ Path.names p = front.filter (!Path.isIdle ·) ++ [n] := by
  obtain ⟨place, found, made⟩ := Except.bind_eq_ok_iff.mp made
  cases place with
  | existing => cases made
  | child d n slash =>
    obtain ⟨front, walked, directory, names⟩ := target_child found
    dsimp only at made
    split at made
    next => cases made
    next free => exact ⟨d, n, front, directory, by simpa using free, (Except.ok.inj made).symm, walked, names⟩

theorem furnished_makeDirectory (made : t.makeDirectory p = .ok t') : t.Furnished t' := by
  obtain ⟨d, n, -, -, free, rfl, -⟩ := makeDirectory_ok made
  refine ⟨rfl, fun l => ?_⟩
  rw [get?_put t _ l _ (by simp)]
  split
  next same => exact Or.inr ⟨same ▸ free, rfl⟩
  next => exact Or.inl rfl

/-- What every directory that is made leaves true holds of a tree when all of them are made, or some before one fails. -/
theorem makeChain_invariant {P : FileTree → Prop} (chain : List Path) (t : FileTree) (holds : P t)
    (step : ∀ q ∈ chain, ∀ v w, P v → v.makeDirectory q = .ok w → P w) : P (t.makeChain chain).1 := by
  induction chain generalizing t with
  | nil => exact holds
  | cons p above ih =>
    have before := ih t holds fun q inside => step q (List.mem_cons_of_mem p inside)
    have mine := step p List.mem_cons_self
    rw [makeChain]
    split
    next made => exact mine _ _ holds made
    next =>
      split
      next failed => rwa [failed] at before
      next done =>
        rw [done] at before
        split
        next made => exact mine _ _ before made
        next => exact before
    next => exact holds

theorem prepare_invariant {P : FileTree → Prop} (t : FileTree) (p : Path) (holds : P t) (step : ∀ above, Path.parent? p = some above →
    ∀ q ∈ Path.ancestors above, ∀ v w, P v → v.makeDirectory q = .ok w → P w) : P (t.prepare p).1 := by
  unfold prepare
  split
  next => exact holds
  next parent found =>
    have parent : Path.parent? p = some parent := (Option.filter_eq_some_iff.mp found).1
    have made : P (t.makeDirectories _).1 := makeChain_invariant _ t holds (step _ parent)
    split
    next done => rwa [done] at made
    next failed => rwa [failed] at made

theorem furnished_prepare (t : FileTree) (p : Path) : t.Furnished (t.prepare p).1 :=
  prepare_invariant t p (.refl t) fun _ _ _ _ _ _ before made => before.trans (furnished_makeDirectory made)

theorem target_of_leads {above : Path} (leads : t.Leads above d) (readable : textError? above = none) :
    ∃ place, t.target above = .ok place ∧ ∀ m n slash, place = .child m n slash → (t.get? (m ++ [n])).isSome = true := by
  obtain ⟨walked, -⟩ : t.walk (t.start above) (Text.split (· == '/') above) = .ok d ∧ t.get? d = some .directory :=
    (leads_iff rfl).mpr leads
  obtain ⟨slashes, whole, -, stop⟩ := Text.dropEnd_split List.isEmpty (Text.split (· == '/') above)
  -- What is walked for the target is the path without its last name, so the name is an entry there or is dots.
  rw [whole] at walked
  rw [target, readable]
  dsimp only
  generalize ((Text.split (· == '/') above).reverse.dropWhile List.isEmpty).reverse = bare at walked stop ⊢
  cases last : bare.getLast? with
  | none => exact ⟨.existing, rfl, by simp⟩
  | some n =>
    rw [← List.dropLast_append_getLast? n last, List.append_assoc, walk_append, Except.bind_eq_ok_iff] at walked
    obtain ⟨m, front, walked⟩ := walked
    obtain ⟨directory, there, -⟩ := walk_cons_iff.mp walked
    simp only [front, bind, Except.bind, directory, ne_eq, not_true_eq_false, if_false]
    by_cases dots : n = "." ∨ n = ".."
    · exact ⟨.existing, by rw [if_pos dots], by simp⟩
    · have solid : ¬ Path.isIdle n = true := by
        intro idle
        rcases Bool.or_eq_true_iff.mp idle with empty | dot
        · exact Bool.false_ne_true ((stop n last).symm.trans empty)
        · exact dots (Or.inl (eq_of_beq dot))
      obtain ⟨short, there⟩ := (there.resolve_left solid).resolve_left fun up => dots (Or.inr up)
      refine ⟨_, by rw [if_neg dots, if_neg (Nat.not_lt.mpr short)], ?_⟩
      rintro _ _ _ ⟨⟩
      exact there

theorem textError?_ne_notFound (named : p ≠ []) : textError? p ≠ some .notFound := by
  intro readable
  unfold textError? at readable
  split at readable
  · cases readable
  · split at readable
    next empty => exact named (List.isEmpty_iff.mp empty)
    next => split at readable <;> cases readable

theorem makeDirectory_unreadable {e : StorageError} (unreadable : textError? p = some e) : t.makeDirectory p = .error e := by
  rw [makeDirectory, target, unreadable]
  rfl

/-- A directory that is there is not made again. -/
theorem makeDirectory_of_leads (named : p ≠ []) (leads : t.Leads p d) : ∃ e, t.makeDirectory p = .error e ∧ e ≠ .notFound := by
  cases readable : textError? p with
  | some e =>
    refine ⟨e, makeDirectory_unreadable readable, ?_⟩
    rintro rfl
    exact textError?_ne_notFound named readable
  | none =>
    obtain ⟨place, found, there⟩ := target_of_leads leads readable
    refine ⟨.alreadyThere, ?_, by simp⟩
    rw [makeDirectory, found]
    cases place with
    | existing => rfl
    | child m n slash => simp [bind, Except.bind, there m n slash rfl]

theorem isDirectory_of_leads (readable : textError? p = none) (leads : t.Leads p d) : t.isDirectory p = true := by
  refine isDirectory_iff.mpr ⟨d, ?_, leads.2⟩
  rw [locate, readable]
  exact ((leads_iff rfl).mpr leads).1

theorem makeChain_of_leads {rest : List Path} (readable : textError? p = none) (leads : t.Leads p d) :
    t.makeChain (p :: rest) = (t, none) := by
  have named : p ≠ [] := by
    rintro rfl
    cases readable
  obtain ⟨e, refused, other⟩ := makeDirectory_of_leads named leads
  simp only [makeChain, refused, isDirectory_of_leads readable leads, if_true]

theorem makeChain_unreadable {rest : List Path} {e : StorageError} (named : p ≠ []) (unreadable : textError? p = some e) :
    t.makeChain (p :: rest) = (t, some e) := by
  have absent : t.isDirectory p = false := by
    rw [isDirectory, entry?, locate, unreadable]
    rfl
  have other : e ≠ .notFound := by
    rintro rfl
    exact textError?_ne_notFound named unreadable
  simp only [makeChain, makeDirectory_unreadable unreadable, absent, Bool.false_eq_true, if_false]

theorem ancestors_cons (named : p ≠ []) : ∃ rest, Path.ancestors p = p :: rest := by
  rw [Path.ancestors, Path.ancestorsUpTo, if_neg (by simpa using named)]
  exact ⟨_, rfl⟩

/-- Where the directory is there, nothing is made, and whether that succeeds can be told from the path. -/
theorem makeDirectories_of_leads (p : Path) : ∃ r, ∀ {t : FileTree} {d}, t.Leads p d → t.makeDirectories p = (t, r) := by
  by_cases named : p = []
  · exact ⟨none, fun _ => by rw [named]; rfl⟩
  · obtain ⟨rest, chain⟩ := ancestors_cons named
    cases readable : textError? p with
    | none => exact ⟨none, fun leads => by rw [makeDirectories, chain, makeChain_of_leads readable leads]⟩
    | some e => exact ⟨some e, fun _ => by rw [makeDirectories, chain, makeChain_unreadable named readable]⟩

theorem prepare_of_parent {above : Path} (found : Path.parent? p = some above) :
    ∃ r, ∀ {t : FileTree} {d}, t.Leads above d → t.prepare p = (t, r) := by
  obtain ⟨r, made⟩ := makeDirectories_of_leads above
  by_cases named : above = []
  · exact ⟨.ok (), fun _ => by rw [prepare, found, named]; rfl⟩
  · have given : (some above).filter (!·.isEmpty) = some above := by simp [named]
    cases r with
    | none => exact ⟨.ok (), fun leads => by simp only [prepare, found, given, made leads]⟩
    | some e => exact ⟨.error (.directory above e), fun leads => by simp only [prepare, found, given, made leads]⟩

theorem prepare_of_leads (base : Path) (proper : Path.Proper n) :
    ∃ r, ∀ {t : FileTree} {d}, t.Leads base d → t.prepare (Path.join base n) = (t, r) := by
  obtain ⟨above, found, names, rooted⟩ := Path.parent?_join base proper
  obtain ⟨r, same⟩ := prepare_of_parent found
  exact ⟨r, fun leads => same ((Leads.congr names rooted).mpr leads)⟩

theorem leads_of_isDirectory (there : t.isDirectory p = true) : ∃ d, t.Leads p d := by
  obtain ⟨d, found, directory⟩ := isDirectory_iff.mp there
  rw [locate] at found
  split at found
  next => cases found
  next => exact ⟨d, (leads_iff rfl).mp ⟨found, directory⟩⟩

/-- A file is found by a part that leads on from its directory. -/
theorem exists_parent (found : t.locate p = .ok l) (file : t.get? l = some (.file old)) :
    ∃ front m above d, p = front ++ m ∧ Path.Opens front ∧ Path.Solid m ∧ Path.parent? p = some above ∧ t.Leads above d := by
  obtain ⟨front, m, rfl, opens, whole⟩ := Path.exists_opens p
  obtain ⟨parts, shape, same⟩ := Path.split_opens opens whole
  have walked : t.walk (t.start front) (parts ++ [m]) = .ok l := by
    rw [locate, shape, start, Path.isAbsolute_opens opens whole] at found
    split at found
    next => cases found
    next => exact found
  rw [walk_append, Except.bind_eq_ok_iff] at walked
  obtain ⟨d, way, walked⟩ := walked
  obtain ⟨directory, -, last⟩ := walk_cons_iff.mp walked
  have solid : Path.Solid m := by
    refine Path.solid_iff.mpr ⟨whole, ?_⟩
    rw [← Bool.not_eq_true]
    intro idle
    rw [next, if_pos idle] at last
    obtain rfl := Except.ok.inj last
    rw [directory] at file
    cases file
  obtain ⟨above, parent, names, rooted⟩ := Path.parent?_opens opens solid
  exact ⟨front, m, above, d, rfl, opens, solid, parent, (Leads.congr names rooted).mpr ((leads_iff same).mp ⟨way, directory⟩)⟩

/-- To write over a file, no directory has to be made. -/
theorem prepare_of_file (found : t.locate p = .ok l) (file : t.get? l = some (.file old)) : (t.prepare p).1 = t := by
  obtain ⟨-, -, above, d, -, -, -, parent, leads⟩ := exists_parent found file
  obtain ⟨r, same⟩ := prepare_of_parent parent
  rw [same leads]

end NotebookPages.FileTree
