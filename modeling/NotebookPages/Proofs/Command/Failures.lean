import NotebookPages.Proofs.Command.Running
import NotebookPages.Proofs.Page.Sources

/-! Items that fail. A batch that goes on after a failure treats the other items as if the failed ones had not been given, unless
one of them has claimed the page of a later item, which is then skipped as a duplicate. -/

namespace NotebookPages.Command.Batch

variable {b : Batch} {t t' u : FileTree} {i : Item} {r : Result} {items : List Item} {claimed claimed' sources : List Path}
  {results : List (Item × Result)} {page : Page}

def failed : Item × Result → Bool
  | (_, .failed _) => true
  | _ => false

/-- The sources whose items did not fail. -/
def remaining (results : List (Item × Result)) : List Path := (results.filter (!failed ·)).map (·.1.source)

/-- A source, where its page goes, and what became of it. -/
def fate (x : Item × Result) : Path × Path × Result := (x.1.source, x.1.destination, x.2)

/-- No failed item has claimed the page of a later one. -/
def Unblocked (results : List (Item × Result)) : Prop :=
  results.Pairwise fun x y => failed x = true → Path.same x.1.destination y.1.destination = false

/-- An item that fails leaves the files as they were. -/
def Traceless (b : Batch) (t : FileTree) (items : List Item) : Prop :=
  ∀ front i back f, items = front ++ i :: back → (b.convert (b.run t false front).1 i).2 = .failed f →
    (b.convert (b.run t false front).1 i).1 = (b.run t false front).1

theorem run_cons (patient : b.failFast = false) (t : FileTree) (i : Item) (items : List Item) : b.run t false (i :: items) =
    ((b.run (b.convert t i).1 false items).1, (i, (b.convert t i).2) :: (b.run (b.convert t i).1 false items).2) := by
  have goesOn : b.stopsAt (b.convert t i).2 = false := by
    cases (b.convert t i).2 <;> first | rfl | exact patient
  rw [run]
  simp [goesOn]

theorem convert_duplicate_iff : (b.convert t i).2 = .skipped .duplicate ↔ i.duplicate = true := by
  unfold convert
  split
  next duplicate => simp [duplicate]
  next fresh =>
    simp only [fresh, Bool.false_eq_true, iff_false]
    split
    next refused =>
      unfold FileTree.refusal? at refused
      split at refused
      · cases refused
        simp
      · split at refused <;> cases refused
        simp
    next =>
      split
      · simp
      · split <;> simp

theorem fresh_of_failed (fails : failed (i, (b.convert t i).2) = true) : i.duplicate = false := by
  rw [← Bool.not_eq_true]
  intro duplicate
  rw [convert_duplicate_iff.mpr duplicate] at fails
  cases fails

theorem remaining_cons_failed {x : Item × Result} (fails : failed x = true) : remaining (x :: results) = remaining results := by
  simp [remaining, fails]

theorem remaining_cons {x : Item × Result} (stays : failed x = false) :
    remaining (x :: results) = x.1.source :: remaining results := by
  simp [remaining, stays]

/-- The item that is planned for a source after those whose pages go to the places in `claimed`. -/
def item (b : Batch) (claimed : List Path) (source : Path) : Item :=
  let destination := Page.outputPath b.options.dialect b.outputDir source
  ⟨source, destination, claimed.any (Path.same destination)⟩

theorem item_cons_of_apart {p source : Path} (apart : Path.same p (Page.outputPath b.options.dialect b.outputDir source) = false) :
    b.item (p :: claimed) source = b.item claimed source := by
  rw [item, List.any_cons, Path.same_comm, apart, Bool.false_or]
  rfl

theorem item_cons_congr {source : Path} (p : Path) (agree : b.item claimed source = b.item claimed' source) :
    b.item (p :: claimed) source = b.item (p :: claimed') source := by
  have taken : claimed.any (Path.same (Page.outputPath b.options.dialect b.outputDir source)) =
      claimed'.any (Path.same (Page.outputPath b.options.dialect b.outputDir source)) := congrArg Item.duplicate agree
  rw [item, item, List.any_cons, List.any_cons, taken]

/-- The results for the sources after those whose pages go to the places in `claimed`. -/
def resultsFrom (b : Batch) (t : FileTree) (claimed sources : List Path) : List (Item × Result) :=
  (b.run t false (b.planFrom claimed sources)).2

theorem resultsFrom_cons (patient : b.failFast = false) (t : FileTree) (claimed : List Path) (source : Path) (sources : List Path) :
    b.resultsFrom t claimed (source :: sources) = (b.item claimed source, (b.convert t (b.item claimed source)).2) ::
      b.resultsFrom (b.convert t (b.item claimed source)).1 ((b.item claimed source).destination :: claimed) sources :=
  congrArg Prod.snd (run_cons patient t (b.item claimed source) _)

/-- A claim that is made only with the failed items keeps the first later item of its page from being treated. -/
theorem fates_differ (patient : b.failFast = false) {p : Path}
    (taken : ∀ q, Path.same p q = true → claimed.any (Path.same q) = true)
    (free : ∀ q, Path.same p q = true → claimed'.any (Path.same q) = false)
    (later : ∃ x ∈ b.resultsFrom t claimed sources, Path.same p x.1.destination = true) :
    (b.resultsFrom t' claimed' (remaining (b.resultsFrom t claimed sources))).map fate ≠
      ((b.resultsFrom t claimed sources).filter (!failed ·)).map fate := by
  induction sources generalizing claimed claimed' t t' with
  | nil =>
    obtain ⟨x, member, -⟩ := later
    cases member
  | cons source sources ih =>
    rw [resultsFrom_cons patient] at later ⊢
    by_cases mine : Path.same p (b.item claimed source).destination = true
    · -- The first source of that page is skipped with the claim, and not without it.
      have skipped : (b.convert t (b.item claimed source)).2 = .skipped .duplicate := convert_duplicate_iff.mpr (taken _ mine)
      rw [skipped, remaining_cons rfl, List.filter_cons_of_pos rfl, resultsFrom_cons patient]
      intro same
      have again : (b.convert t' (b.item claimed' source)).2 = .skipped .duplicate :=
        congrArg (fun fate : Path × Path × Result => fate.2.2) (List.cons.inj same).1
      have duplicate : claimed'.any (Path.same (b.item claimed source).destination) = true := convert_duplicate_iff.mp again
      rw [free _ mine] at duplicate
      cases duplicate
    · obtain ⟨x, member, same⟩ := later
      rcases List.mem_cons.mp member with rfl | member
      · exact absurd same mine
      · have taken' : ∀ q, Path.same p q = true → ((b.item claimed source).destination :: claimed).any (Path.same q) = true := by
          intro q same
          rw [List.any_cons, taken q same, Bool.or_true]
        cases stays : failed (b.item claimed source, (b.convert t (b.item claimed source)).2) with
        | true =>
          rw [remaining_cons_failed stays, List.filter_cons_of_neg (by simp [stays])]
          exact ih taken' free ⟨x, member, same⟩
        | false =>
          have free' : ∀ q, Path.same p q = true → ((b.item claimed' source).destination :: claimed').any (Path.same q) = false := by
            intro q same
            rw [List.any_cons, free q same, Bool.or_false, ← Bool.not_eq_true]
            exact fun here => mine (Path.same_trans same here)
          rw [remaining_cons stays, List.filter_cons_of_pos (by simp [stays]), resultsFrom_cons patient]
          intro same'
          exact ih taken' free' ⟨x, member, same⟩ (List.cons.inj same').2

/-- If the other items fare the same without the failed ones, no failed item has claimed the page of a later one. -/
theorem unblocked_of_fates (patient : b.failFast = false)
    (sub : ∀ p, claimed.any (Path.same p) = false → claimed'.any (Path.same p) = false)
    (same : (b.resultsFrom t' claimed' (remaining (b.resultsFrom t claimed sources))).map fate =
      ((b.resultsFrom t claimed sources).filter (!failed ·)).map fate) : Unblocked (b.resultsFrom t claimed sources) := by
  induction sources generalizing claimed claimed' t t' with
  | nil => exact .nil
  | cons source sources ih =>
    rw [resultsFrom_cons patient] at same ⊢
    cases stays : failed (b.item claimed source, (b.convert t (b.item claimed source)).2) with
    | true =>
      rw [remaining_cons_failed stays, List.filter_cons_of_neg (by simp [stays])] at same
      refine .cons (fun y member _ => ?_) (ih (fun p untaken => sub p ?_) same)
      · rw [← Bool.not_eq_true]
        intro claims
        refine fates_differ patient (fun q alike => ?_) (fun q alike => sub q ?_) ⟨y, member, claims⟩ same
        · rw [List.any_cons, Path.same_comm, alike, Bool.true_or]
        · rw [← Path.same_congr alike]
          exact fresh_of_failed stays
      · rw [List.any_cons, Bool.or_eq_false_iff] at untaken
        exact untaken.2
    | false =>
      rw [remaining_cons stays, List.filter_cons_of_pos (by simp [stays]), resultsFrom_cons patient] at same
      refine .cons (fun y _ fails => by rw [stays] at fails; cases fails) (ih ?_ (List.cons.inj same).2)
      intro p untaken
      rw [List.any_cons, Bool.or_eq_false_iff] at untaken ⊢
      exact ⟨untaken.1, sub p untaken.2⟩

theorem traceless_cons (patient : b.failFast = false) (traceless : Traceless b t (i :: items)) :
    (failed (i, (b.convert t i).2) = true → (b.convert t i).1 = t) ∧ Traceless b (b.convert t i).1 items := by
  constructor
  · intro fails
    cases result : (b.convert t i).2 with
    | converted k => rw [result] at fails; cases fails
    | skipped r => rw [result] at fails; cases fails
    | failed f => exact traceless [] i items f rfl result
  · intro front j back f whole fails
    have step := traceless (i :: front) j back f (by rw [whole]; rfl)
    rw [run_cons patient] at step
    exact step fails

theorem exists_result (b : Batch) (t : FileTree) (claimed : List Path) {source : Path} (member : source ∈ sources) :
    ∃ x ∈ b.resultsFrom t claimed sources, x.1.destination = Page.outputPath b.options.dialect b.outputDir source := by
  obtain ⟨i, planned, place⟩ : ∃ i ∈ b.planFrom claimed sources,
      i.destination = Page.outputPath b.options.dialect b.outputDir source := by
    induction sources generalizing claimed with
    | nil => cases member
    | cons first sources ih =>
      rcases List.mem_cons.mp member with rfl | member
      · exact ⟨_, List.mem_cons_self, rfl⟩
      · obtain ⟨i, planned, place⟩ := ih ((b.item claimed first).destination :: claimed) member
        exact ⟨i, List.mem_cons_of_mem _ planned, place⟩
  rw [← run_items b t false (b.planFrom claimed sources)] at planned
  obtain ⟨x, member, rfl⟩ := List.mem_map.mp planned
  exact ⟨x, member, place⟩

/-- Failed items that leave nothing behind and claim no later page might as well not have been given. -/
theorem run_remaining_of_unblocked (patient : b.failFast = false)
    (agree : ∀ source ∈ sources, b.item claimed source = b.item claimed' source)
    (traceless : Traceless b t (b.planFrom claimed sources)) (unblocked : Unblocked (b.resultsFrom t claimed sources)) :
    b.run t false (b.planFrom claimed' (remaining (b.resultsFrom t claimed sources))) =
      ((b.run t false (b.planFrom claimed sources)).1, (b.resultsFrom t claimed sources).filter (!failed ·)) := by
  induction sources generalizing claimed claimed' t with
  | nil => rfl
  | cons source sources ih =>
    have planned : ∀ claimed sources, b.planFrom claimed (source :: sources) =
        b.item claimed source :: b.planFrom ((b.item claimed source).destination :: claimed) sources := fun _ _ => rfl
    obtain ⟨same, others⟩ := List.forall_mem_cons.mp agree
    rw [planned] at traceless
    obtain ⟨left, traceless⟩ := traceless_cons patient traceless
    rw [resultsFrom_cons patient] at unblocked ⊢
    obtain ⟨claims, unblocked⟩ := List.pairwise_cons.mp unblocked
    rw [planned claimed, run_cons patient]
    cases stays : failed (b.item claimed source, (b.convert t (b.item claimed source)).2) with
    | true =>
      rw [remaining_cons_failed stays, List.filter_cons_of_neg (by simp [stays])]
      rw [left stays] at claims traceless unblocked ⊢
      refine ih (fun later member => ?_) traceless unblocked
      obtain ⟨x, result, place⟩ := exists_result b t ((b.item claimed source).destination :: claimed) member
      have apart := claims x result stays
      rw [place] at apart
      rw [item_cons_of_apart apart, others later member]
    | false =>
      rw [remaining_cons stays, List.filter_cons_of_pos (by simp [stays]),
        show (b.item claimed source, (b.convert t (b.item claimed source)).2).1.source = source from rfl, planned claimed', ← same,
        run_cons patient, ih (fun later member => item_cons_congr _ (others later member)) traceless unblocked]

/-- An item is skipped as a duplicate exactly if an item before it has claimed its page. -/
theorem duplicate_result_iff (patient : b.failFast = false) (claimed : List Path) {front back : List (Item × Result)}
    {x : Item × Result} (whole : b.resultsFrom t claimed sources = front ++ x :: back) : x.2 = .skipped .duplicate ↔
      claimed.any (Path.same x.1.destination) = true ∨ ∃ y ∈ front, Path.same y.1.destination x.1.destination = true := by
  induction sources generalizing claimed t front with
  | nil => simp [resultsFrom, planFrom, run] at whole
  | cons source sources ih =>
    rw [resultsFrom_cons patient] at whole
    cases front with
    | nil =>
      obtain ⟨rfl, -⟩ := List.cons.inj whole
      rw [convert_duplicate_iff]
      simp [item]
    | cons y front =>
      obtain ⟨rfl, rest⟩ := List.cons.inj whole
      rw [ih _ rest, List.any_cons, Bool.or_eq_true, Path.same_comm]
      simp only [List.mem_cons, exists_eq_or_imp]
      rw [or_assoc, or_left_comm]

/-- Where the page of an item can be made, its directory is there unless one is asked for. -/
theorem leads_of_attempt (made : b.attempt t i = .ok page) (beside : b.outputDir = none) :
    ∃ d, t.Leads (b.directory i.source) d := by
  obtain ⟨-, l, content, -, found, file⟩ := Page.source_of_ofFile (attempt_eq_ok made).2.2
  obtain ⟨-, -, above, d, -, -, -, parent, leads⟩ := FileTree.exists_parent found file
  rw [directory, beside, parent]
  exact ⟨d, leads⟩

/-- Where the directory of its page is there, an item that fails leaves nothing behind. -/
theorem convert_failed {f : Failure} (place : i.destination = Page.outputPath b.options.dialect b.outputDir i.source)
    (there : ∀ p ∈ b.outputDir, t.isDirectory p = true) (fails : b.convert t i = (u, .failed f)) : u = t := by
  cases made : b.attempt t i with
  | error r => exact (Prod.mk.inj ((convert_of_error made).symm.trans fails)).1.symm
  | ok page =>
    rw [convert_of_ok made] at fails
    generalize result : t.publish b.backup i.destination page.content = ran at fails
    obtain ⟨v, r⟩ := ran
    obtain ⟨rfl, failed⟩ := Prod.mk.inj fails
    obtain ⟨n, named, shape⟩ := destination_shape place
    rw [shape] at result
    obtain ⟨d, leads⟩ : ∃ d, t.Leads (b.directory i.source) d := by
      cases asked : b.outputDir with
      | none => exact leads_of_attempt made asked
      | some p =>
        rw [directory, asked]
        exact FileTree.leads_of_isDirectory (there p asked)
    rcases FileTree.publish_cases named.toProper result with ⟨-, rfl⟩ | ⟨⟨k, rfl⟩, -⟩
    · obtain ⟨r, same⟩ := FileTree.prepare_of_leads _ named.toProper
      rw [same leads]
    · cases failed

theorem traceless_of_directory (b : Batch) (t : FileTree) (sources : List Path) (there : ∀ p ∈ b.outputDir, t.isDirectory p = true) :
    Traceless b t (b.plan sources) := by
  intro front i back f whole fails
  have planned : ∀ j ∈ front ++ i :: back, j ∈ b.plan sources := fun j member => whole ▸ member
  have grows : t.Grows (b.run t false front).1 := by
    refine (b.ran t false front).grows fun x member => placed_planFrom (planned x.1 (List.mem_append_left _ ?_))
    rw [← run_items b t false front]
    exact List.mem_map_of_mem member
  have place := destination_planFrom (planned i (by simp))
  exact convert_failed place (fun p asked => grows.isDirectory (there p asked)) (Prod.ext rfl fails)

/-- What failed items mean for the others, in a batch that goes on. An item is a duplicate exactly if an item before it has the
same destination, whatever became of that one. So if the other items fare the same without the failed ones, these have claimed
no later page; and if they have not, and have left nothing behind, all else is the same. -/
theorem run_remaining (b : Batch) (patient : b.failFast = false) (t : FileTree) (sources : List Path) :
    let ran := b.run t false (b.plan sources)
    let again := b.run t false (b.plan (remaining ran.2))
    (∀ front x back, ran.2 = front ++ x :: back →
      (x.2 = .skipped .duplicate ↔ ∃ y ∈ front, Path.same y.1.destination x.1.destination = true)) ∧
    (again.2.map fate = (ran.2.filter (!failed ·)).map fate → Unblocked ran.2) ∧
    (Unblocked ran.2 → Traceless b t (b.plan sources) → again = (ran.1, ran.2.filter (!failed ·))) ∧
    ((∀ p ∈ b.outputDir, t.isDirectory p = true) → Traceless b t (b.plan sources)) := by
  intro ran again
  refine ⟨fun front x back whole => ?_, fun same => ?_, fun unblocked traceless => ?_, traceless_of_directory b t sources⟩
  · simpa using duplicate_result_iff patient [] whole
  · exact unblocked_of_fates patient (fun _ untaken => untaken) same
  · exact run_remaining_of_unblocked patient (fun _ _ => rfl) traceless unblocked

/-- A batch that goes on after a failure. -/
def goingOn : Batch := ⟨{}, none, false, false, false, 1⟩

/-- A source that is no text, and two that are. -/
def withBroken : FileTree :=
  ⟨[(["A.md"], .file [255]), (["a.md"], .file (Text.encode "---\n---\n")), (["b.md"], .file (Text.encode "---\n---\n"))], []⟩

theorem run_remaining_apart : goingOn.failFast = false ∧
    let ran := goingOn.run withBroken false (goingOn.plan ["A.md", "b.md"])
    ran.2.map failed = [true, false] ∧ goingOn.run withBroken false (goingOn.plan ["b.md"]) = (ran.1, ran.2.filter (!failed ·)) :=
  ⟨rfl, by decide +kernel,
    (run_remaining goingOn rfl withBroken ["A.md", "b.md"]).2.2.1 (by unfold Unblocked; decide +kernel)
      ((run_remaining goingOn rfl withBroken ["A.md", "b.md"]).2.2.2 (by simp [goingOn]))⟩

/-- A source that fails keeps another of its page from being converted. -/
theorem run_remaining_blocked :
    let ran := goingOn.run withBroken false (goingOn.plan ["A.md", "a.md"])
    ran.2.map failed = [true, false] ∧
      (ran.2.filter (!failed ·)).map fate = ([("a.md", "a.mdx", .skipped .duplicate)] : List (Path × Path × Result)) ∧
      (goingOn.run withBroken false (goingOn.plan ["a.md"])).2.map fate =
        ([("a.md", "a.mdx", .converted none)] : List (Path × Path × Result)) := by
  decide +kernel

end NotebookPages.Command.Batch
