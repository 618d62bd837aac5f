import NotebookPages.Proofs.Command.Plan
import NotebookPages.Proofs.Storage.Nesting
import NotebookPages.Proofs.Storage.Rewriting

/-! The run of a batch. An item is treated in the files that the ones before it left, and nothing that exists goes away. -/

namespace NotebookPages.Command.Batch

variable {b : Batch} {t u : FileTree} {i : Item} {r : Result} {results : List (Item × Result)} {ended : Bool}
  {page : Page}

/-- The items of a batch are treated one after another, from one tree to another. -/
inductive Ran (b : Batch) : FileTree → Bool → List (Item × Result) → FileTree → Prop where
  | done (t : FileTree) (ended : Bool) : Ran b t ended [] t
  | step {t u v : FileTree} {ended : Bool} {i : Item} {r : Result} {results : List (Item × Result)}
      (treated : (if ended then (t, .skipped .earlierFailure) else b.convert t i) = (u, r))
      (more : Ran b u (ended || b.stopsAt r) results v) : Ran b t ended ((i, r) :: results) v

theorem ran (b : Batch) (t : FileTree) (ended : Bool) (items : List Item) :
    Ran b t ended (b.run t ended items).2 (b.run t ended items).1 := by
  induction items generalizing t ended with
  | nil => exact .done t ended
  | cons i rest ih => exact .step rfl (ih _ _)

/-- What a batch does to an item is done to the files that the items before it left. -/
theorem Ran.treated {front back : List (Item × Result)} {v : FileTree} (run : Ran b t ended (front ++ (i, r) :: back) u)
    (before : Ran b t ended front v) : ∃ (ended : Bool) (w : FileTree),
      (if ended then (v, .skipped .earlierFailure) else b.convert v i) = (w, r) := by
  induction before with
  | done t ended =>
    cases run with
    | step treated more => exact ⟨ended, _, treated⟩
  | step first later ih =>
    cases run with
    | step again more =>
      obtain ⟨rfl, -⟩ := Prod.mk.inj (first.symm.trans again)
      exact ih more

theorem run_items (b : Batch) (t : FileTree) (ended : Bool) (items : List Item) : (b.run t ended items).2.map Prod.fst = items := by
  induction items generalizing t ended with
  | nil => rfl
  | cons i rest ih => exact congrArg (i :: ·) (ih _ _)

/-- The page of an item that is to be published, or the result if there is none. -/
def attempt (b : Batch) (t : FileTree) (i : Item) : Except Result Page :=
  if i.duplicate then .error (.skipped .duplicate)
  else match t.refusal? b.force i.source i.destination with
    | some r => .error (.skipped r)
    | none => (Page.ofFile b.options t i.destination i.source).mapError fun e => .failed e.failure

def published : Except PublishError (Option Path) → Result
  | .ok backup => .converted backup
  | .error e => .failed e.failure

theorem convert_of_error (ended : b.attempt t i = .error r) : b.convert t i = (t, r) := by
  rw [attempt] at ended
  rw [convert]
  by_cases duplicate : i.duplicate = true
  · rw [if_pos duplicate] at ended ⊢
    exact congrArg _ (Except.error.inj ended)
  · rw [if_neg duplicate] at ended ⊢
    cases refused : t.refusal? b.force i.source i.destination with
    | some r =>
      rw [refused] at ended
      exact congrArg _ (Except.error.inj ended)
    | none =>
      rw [refused] at ended
      cases made : Page.ofFile b.options t i.destination i.source with
      | error e =>
        rw [made] at ended
        exact congrArg _ (Except.error.inj ended)
      | ok page =>
        rw [made] at ended
        cases ended

theorem attempt_eq_ok (made : b.attempt t i = .ok page) : i.duplicate = false ∧
    t.refusal? b.force i.source i.destination = none ∧ Page.ofFile b.options t i.destination i.source = .ok page := by
  unfold attempt at made
  split at made
  next => cases made
  next fresh =>
    split at made
    next => cases made
    next free =>
      refine ⟨by simpa using fresh, free, ?_⟩
      cases read : Page.ofFile b.options t i.destination i.source with
      | error e =>
        rw [read] at made
        cases made
      | ok page' =>
        rw [read] at made
        cases made
        rfl

theorem convert_of_ok (made : b.attempt t i = .ok page) : b.convert t i =
    ((t.publish b.backup i.destination page.content).1, published (t.publish b.backup i.destination page.content).2) := by
  obtain ⟨fresh, free, read⟩ := attempt_eq_ok made
  rw [convert, fresh, if_neg Bool.false_ne_true, free, read]
  dsimp only
  generalize t.publish b.backup i.destination page.content = ran
  obtain ⟨u, r⟩ := ran
  cases r <;> rfl

theorem ne_converted_of_error (ended : b.attempt t i = .error r) (k : Option Path) : r ≠ .converted k := by
  rintro rfl
  unfold attempt at ended
  split at ended
  next => cases ended
  next =>
    split at ended
    next => cases ended
    next =>
      cases made : Page.ofFile b.options t i.destination i.source with
      | error e =>
        rw [made] at ended
        cases ended
      | ok page =>
        rw [made] at ended
        cases ended

/-- An item is converted if nothing stands against it, its page can be made, and the page is published. -/
theorem convert_cases (treated : b.convert t i = (u, r)) :
    (∃ k page, r = .converted k ∧ i.duplicate = false ∧ t.refusal? b.force i.source i.destination = none ∧
        Page.ofFile b.options t i.destination i.source = .ok page ∧ t.publish b.backup i.destination page.content = (u, .ok k)) ∨
      (∀ k, r ≠ .converted k) ∧ (u = t ∨ u = (t.prepare i.destination).1) := by
  cases made : b.attempt t i with
  | error e =>
    rw [convert_of_error made] at treated
    obtain ⟨rfl, rfl⟩ := Prod.mk.inj treated
    exact Or.inr ⟨ne_converted_of_error made, Or.inl rfl⟩
  | ok page =>
    obtain ⟨fresh, free, read⟩ := attempt_eq_ok made
    rw [convert_of_ok made] at treated
    generalize done : t.publish b.backup i.destination page.content = ran at treated
    obtain ⟨v, p⟩ := ran
    obtain ⟨rfl, rfl⟩ := Prod.mk.inj treated
    cases p with
    | ok k => exact Or.inl ⟨k, page, rfl, fresh, free, read, done⟩
    | error e => exact Or.inr ⟨by simp [published], Or.inr (FileTree.publish_error done)⟩

/-- What becomes of an item: a page is published, or nothing but directories is left behind. -/
theorem treated_cases (placed : Placed i) (treated : (if ended then (t, .skipped .earlierFailure) else b.convert t i) = (u, r)) :
    (∃ k, r = .converted k) ∧ i.duplicate = false ∧
        (∃ n content d, Page.Named n ∧ FileTree.Published t u b.backup i.destination n content d) ∨
      (∀ k, r ≠ .converted k) ∧ t.Furnished u := by
  obtain ⟨base, n, place, named⟩ := placed
  split at treated
  next =>
    obtain ⟨rfl, rfl⟩ := Prod.mk.inj treated
    exact Or.inr ⟨by simp, .refl t⟩
  next =>
    rcases convert_cases treated with ⟨k, page, rfl, fresh, -, -, published⟩ | ⟨other, rfl | rfl⟩
    · rw [place] at published ⊢
      rcases FileTree.publish_cases named.toProper published with ⟨⟨e, same⟩, -⟩ | ⟨-, d, published⟩
      · cases same
      · exact Or.inl ⟨⟨k, rfl⟩, fresh, n, _, d, named, published⟩
    · exact Or.inr ⟨other, .refl _⟩
    · exact Or.inr ⟨other, FileTree.furnished_prepare t _⟩

theorem Ran.grows (run : Ran b t ended results u) (placed : ∀ x ∈ results, Placed x.1) : t.Grows u := by
  induction run with
  | done t ended => exact .refl t
  | step treated more ih =>
    obtain ⟨first, others⟩ := List.forall_mem_cons.mp placed
    rcases treated_cases first treated with ⟨-, -, n, content, d, -, published⟩ | ⟨-, furnished⟩
    · exact published.grows.trans (ih others)
    · exact furnished.grows.trans (ih others)

theorem nested_convert (nested : t.Nested) (treated : b.convert t i = (u, r)) : u.Nested := by
  rcases convert_cases treated with ⟨k, page, -, -, -, -, published⟩ | ⟨-, rfl | rfl⟩
  · exact nested.publish published
  · exact nested
  · exact nested.prepare _

theorem Ran.nested (run : Ran b t ended results u) (nested : t.Nested) : u.Nested := by
  induction run with
  | done t ended => exact nested
  | @step t u v ended i r results treated more ih =>
    refine ih ?_
    split at treated
    next =>
      obtain ⟨rfl, -⟩ := Prod.mk.inj treated
      exact nested
    next => exact nested_convert nested treated

end NotebookPages.Command.Batch
