import NotebookPages.Proofs.Command.Failures

/-! Batches that stop at the first failure. Up to that item such a batch is one that goes on, and all later items are skipped
without another look at the files. -/

namespace NotebookPages.Command.Batch

variable {b : Batch} {t u v : FileTree} {i : Item} {r : Result} {items front : List Item}
  {results : List (Item × Result)}

/-- The same batch, but one that goes on after a failure. -/
def persisting (b : Batch) : Batch := { b with failFast := false }

/-- The same batch, but one that stops at the first failure. -/
def stopping (b : Batch) : Batch := { b with failFast := true }

/-- The files that the first `n` items leave behind. -/
def filesAfter (b : Batch) (t : FileTree) (items : List Item) (n : Nat) : FileTree := (b.run t false (items.take n)).1

/-- The result of an item after the failure that has ended its batch. -/
def passedOver (i : Item) : Item × Result := (i, .skipped .earlierFailure)

/-- No item has failed. -/
def Calm (results : List (Item × Result)) : Prop := ∀ x ∈ results, failed x = false

instance (results : List (Item × Result)) : Decidable (Calm results) := inferInstanceAs (Decidable (∀ x ∈ results, _))

theorem run_ended (b : Batch) (t : FileTree) (items : List Item) : b.run t true items = (t, items.map passedOver) := by
  induction items with
  | nil => rfl
  | cons i items ih =>
    rw [run, if_pos rfl]
    exact congrArg (fun ran => (ran.1, passedOver i :: ran.2)) ih

theorem run_treated (treated : b.convert t i = (u, r)) (items : List Item) :
    b.run t false (i :: items) = ((b.run u (b.stopsAt r) items).1, (i, r) :: (b.run u (b.stopsAt r) items).2) := by
  rw [run, if_neg Bool.false_ne_true, treated]
  rfl

/-- The later items are treated in the files that the first ones left, unless one of these has ended the batch. -/
theorem run_append (first : b.run t false front = (u, results)) (back : List Item) : b.run t false (front ++ back) =
    ((b.run u (results.any fun x => b.stopsAt x.2) back).1, results ++ (b.run u (results.any fun x => b.stopsAt x.2) back).2) := by
  induction front generalizing t results with
  | nil =>
    obtain ⟨rfl, rfl⟩ := Prod.mk.inj first
    rfl
  | cons i front ih =>
    obtain ⟨v, r, treated⟩ : ∃ v r, b.convert t i = (v, r) := ⟨_, _, rfl⟩
    rw [run_treated treated] at first
    rw [List.cons_append, run_treated treated]
    cases stops : b.stopsAt r with
    | true =>
      rw [stops, run_ended] at first
      obtain ⟨rfl, rfl⟩ := Prod.mk.inj first
      simp only [List.any_cons, stops, Bool.true_or, run_ended, List.map_append, List.cons_append]
    | false =>
      rw [stops] at first
      obtain ⟨rfl, rfl⟩ := Prod.mk.inj first
      rw [ih rfl, List.any_cons, stops, Bool.false_or, List.cons_append]

theorem stopsAt_stopping (b : Batch) (x : Item × Result) : b.stopping.stopsAt x.2 = failed x := by
  obtain ⟨i, r⟩ := x
  cases r <;> rfl

theorem stopsAt_persisting (b : Batch) (x : Item × Result) : b.persisting.stopsAt x.2 = false := by
  obtain ⟨i, r⟩ := x
  cases r <;> rfl

theorem run_persisting_append (first : b.persisting.run t false front = (u, results)) (back : List Item) :
    b.persisting.run t false (front ++ back) = ((b.persisting.run u false back).1, results ++ (b.persisting.run u false back).2) := by
  have goesOn : (results.any fun x => b.persisting.stopsAt x.2) = false :=
    List.any_eq_false.mpr fun x _ => by rw [stopsAt_persisting]; exact Bool.false_ne_true
  rw [run_append first, goesOn]

/-- As long as no item fails, a batch that would stop goes on as well. -/
theorem run_stopping_of_calm (ran : b.persisting.run t false items = (u, results)) (calm : Calm results) :
    b.stopping.run t false items = (u, results) := by
  induction items generalizing t results with
  | nil => exact ran
  | cons i items ih =>
    obtain ⟨v, r, treated⟩ : ∃ v r, b.convert t i = (v, r) := ⟨_, _, rfl⟩
    rw [run_treated (b := b.persisting) treated, b.stopsAt_persisting (i, r)] at ran
    obtain ⟨rfl, rfl⟩ := Prod.mk.inj ran
    obtain ⟨first, others⟩ := List.forall_mem_cons.mp calm
    rw [run_treated (b := b.stopping) treated, b.stopsAt_stopping (i, r), first, ih rfl others]

theorem run_stopping_append (first : b.persisting.run t false front = (u, results)) (calm : Calm results) (back : List Item) :
    b.stopping.run t false (front ++ back) = ((b.stopping.run u false back).1, results ++ (b.stopping.run u false back).2) := by
  have goesOn : (results.any fun x => b.stopping.stopsAt x.2) = false :=
    List.any_eq_false.mpr fun x member => by rw [stopsAt_stopping, calm x member]; exact Bool.false_ne_true
  rw [run_append (run_stopping_of_calm first calm), goesOn]

/-- The first item that fails is the last one that the batch treats. -/
theorem run_stopping_of_failed (first : b.persisting.run t false front = (u, results)) (calm : Calm results)
    (treated : b.convert u i = (v, r)) (fails : failed (i, r) = true) (back : List Item) :
    b.stopping.run t false (front ++ i :: back) = (v, results ++ (i, r) :: back.map passedOver) := by
  rw [run_stopping_append first calm, run_treated (b := b.stopping) treated, b.stopsAt_stopping (i, r), fails, run_ended]

/-- A result is that of an item in the files that the items before it left. -/
theorem treated_of_run {back : List (Item × Result)} (ran : (b.persisting.run t false items).2 = results ++ (i, r) :: back) :
    ∃ u v, items = results.map Prod.fst ++ i :: back.map Prod.fst ∧
      b.persisting.run t false (results.map Prod.fst) = (u, results) ∧ b.convert u i = (v, r) := by
  have whole : items = results.map Prod.fst ++ i :: back.map Prod.fst := by
    rw [← run_items b.persisting t false items, ran, List.map_append, List.map_cons]
  obtain ⟨u, done, first⟩ : ∃ u done, b.persisting.run t false (results.map Prod.fst) = (u, done) := ⟨_, _, rfl⟩
  obtain ⟨v, r', treated⟩ : ∃ v r', b.convert u i = (v, r') := ⟨_, _, rfl⟩
  have length : done.length = results.length := by
    have same := congrArg List.length (run_items b.persisting t false (results.map Prod.fst))
    rwa [first, List.length_map, List.length_map] at same
  rw [whole, run_persisting_append first, run_treated (b := b.persisting) treated] at ran
  obtain ⟨rfl, later⟩ := List.append_inj ran length
  obtain ⟨-, rfl⟩ := Prod.mk.inj (List.cons.inj later).1
  exact ⟨u, v, whole, first, treated⟩

theorem filesAfter_append_of_le {n : Nat} (inside : n ≤ front.length) (back : List Item) :
    b.filesAfter t (front ++ back) n = b.filesAfter t front n := by
  rw [filesAfter, filesAfter, List.take_append_of_le_length inside]

theorem filesAfter_append_cons (b : Batch) (t : FileTree) (front : List Item) (i : Item) (back : List Item) (m : Nat) :
    b.filesAfter t (front ++ i :: back) (front.length + 1 + m) = (b.run t false (front ++ i :: back.take m)).1 := by
  rw [filesAfter, Nat.add_assoc, List.take_length_add_append, Nat.add_comm 1, List.take_succ_cons]

theorem filesAfter_of_calm (calm : Calm (b.persisting.run t false items).2) (n : Nat) :
    b.stopping.filesAfter t items n = b.persisting.filesAfter t items n := by
  have fewer : Calm (b.persisting.run t false (items.take n)).2 := by
    intro x member
    apply calm
    rw [← List.take_append_drop n items, run_persisting_append rfl]
    exact List.mem_append_left _ member
  rw [filesAfter, filesAfter, run_stopping_of_calm rfl fewer]

/-- A batch that stops at the first failure is the beginning of the batch that goes on. If no item fails, it is that batch. Otherwise
the items up to the first that fails have the same results and leave the same files behind, one after another, and the later ones
are skipped for the failure and leave these files alone. -/
theorem run_stopping (b : Batch) (t : FileTree) (items : List Item) :
    let ran := b.persisting.run t false items
    (Calm ran.2 → b.stopping.run t false items = ran ∧ ∀ n, b.stopping.filesAfter t items n = b.persisting.filesAfter t items n) ∧
    (∀ front x back, ran.2 = front ++ x :: back → Calm front → failed x = true →
      let treated := front.length + 1
      b.stopping.run t false items = (b.persisting.filesAfter t items treated, front ++ x :: back.map fun y => passedOver y.1) ∧
      (∀ n ≤ treated, b.stopping.filesAfter t items n = b.persisting.filesAfter t items n) ∧
      ∀ n ≥ treated, b.stopping.filesAfter t items n = b.persisting.filesAfter t items treated) ∧
    Refusal.earlierFailure.message = "previous error" := by
  intro ran
  refine ⟨fun calm => ⟨run_stopping_of_calm rfl calm, filesAfter_of_calm calm⟩, ?_, rfl⟩
  rintro front ⟨i, r⟩ back whole calm fails treated
  obtain ⟨u, v, rfl, first, result⟩ := treated_of_run whole
  have count : treated = (front.map Prod.fst).length + 1 := congrArg (· + 1) (List.length_map Prod.fst).symm
  have here : b.persisting.filesAfter t (front.map Prod.fst ++ i :: back.map Prod.fst) treated = v := by
    rw [count, ← Nat.add_zero (_ + 1), filesAfter_append_cons, List.take_zero, run_persisting_append first,
      run_treated (b := b.persisting) result]
    rfl
  have beyond : ∀ m, b.stopping.filesAfter t (front.map Prod.fst ++ i :: back.map Prod.fst) (treated + m) = v := by
    intro m
    rw [count, filesAfter_append_cons, run_stopping_of_failed first calm result fails]
  refine ⟨?_, fun n early => ?_, fun n late => ?_⟩
  · rw [here, run_stopping_of_failed first calm result fails, List.map_map]
    rfl
  · rcases Nat.lt_or_eq_of_le early with before | rfl
    · have inside : n ≤ (front.map Prod.fst).length := by omega
      have quiet : Calm (b.persisting.run t false (front.map Prod.fst)).2 := by rwa [first]
      rw [filesAfter_append_of_le inside, filesAfter_append_of_le inside, filesAfter_of_calm quiet]
    · rw [here]
      exact beyond 0
  · obtain ⟨m, rfl⟩ := Nat.exists_eq_add_of_le late
    rw [here, beyond]

/-- A source that is there, one that is not, and another that is. -/
theorem run_stopping_missing :
    let there := goingOn.plan ["a.md", "b.md"]
    let items := goingOn.plan ["a.md", "c.md", "b.md"]
    let front : List (Item × Result) := [(⟨"a.md", "a.mdx", false⟩, .converted none)]
    let x : Item × Result := (⟨"c.md", "c.mdx", false⟩, .failed (SourceError.unreadable .notFound).failure)
    let last : Item := ⟨"b.md", "b.mdx", false⟩
    (Calm (goingOn.persisting.run withBroken false there).2 ∧
      goingOn.stopping.run withBroken false there = goingOn.persisting.run withBroken false there) ∧
    (goingOn.persisting.run withBroken false items).2 = front ++ x :: [(last, .converted none)] ∧ Calm front ∧ failed x = true ∧
    goingOn.stopping.run withBroken false items =
      (goingOn.persisting.filesAfter withBroken items 2, front ++ x :: [(last, .skipped .earlierFailure)]) := by
  intro there items front x last
  have calm : Calm (goingOn.persisting.run withBroken false there).2 := by decide +kernel
  have ran : (goingOn.persisting.run withBroken false items).2 = front ++ x :: [(last, .converted none)] := by decide +kernel
  have converted : Calm front := List.forall_mem_singleton.mpr rfl
  refine ⟨⟨calm, ((run_stopping goingOn withBroken there).1 calm).1⟩, ran, converted, rfl, ?_⟩
  exact ((run_stopping goingOn withBroken items).2.1 front x _ ran converted rfl).1

end NotebookPages.Command.Batch
