import NotebookPages.Markup.Lexeme
import NotebookPages.Proofs.Text.Cut

/-! Runs of backticks. A run opens a code span only where a run of the same length follows, so what
matters about the rest of a line is which lengths of runs it holds. -/

namespace NotebookPages.Markup

variable {n k : Nat} {a s : Text}

/-- The text does not begin with a backtick. -/
def Unticked (s : Text) : Prop := ∀ c, s.head? = some c → isBacktick c = false

/-- The text does not end with a backtick. -/
def EndsUnticked (s : Text) : Prop := ∀ c, s.getLast? = some c → isBacktick c = false

/-- The text holds no run of exactly `n` backticks. -/
def Free (n : Nat) (s : Text) : Prop := afterRun? n 0 s = none

/-- The number of backticks at the end of a text that `k` backticks precede. -/
def runAfter (k : Nat) (s : Text) : Nat := s.foldl (fun k c => if isBacktick c then k + 1 else 0) k

theorem unticked_nil : Unticked [] := by simp [Unticked]

theorem unticked_cons {c : Char} (plain : isBacktick c = false) : Unticked (c :: s) := by
  intro d same
  obtain rfl : c = d := by simpa using same
  exact plain

theorem afterRun?_append (none : afterRun? n k (a ++ s) = none) (r : Text) :
    afterRun? n k (a ++ r) = afterRun? n (runAfter k a) r := by
  induction a generalizing k with
  | nil => rfl
  | cons c a ih =>
    simp only [List.cons_append, afterRun?] at none ⊢
    split at none
    next tick => simpa [tick, runAfter] using ih none
    next plain =>
      split at none
      · cases none
      next differs => simpa [plain, differs, runAfter] using ih none

theorem afterRun?_eq_none_iff (positive : 0 < n) (start : Unticked s) :
    afterRun? n k s = none ↔ k ≠ n ∧ Free n s := by
  cases s with
  | nil =>
    have : (0 == n) = false := by simpa using Nat.ne_of_lt positive
    simp [Free, afterRun?, this]
  | cons c s =>
    have plain : isBacktick c = false := start c rfl
    have : (0 == n) = false := by simpa using Nat.ne_of_lt positive
    by_cases same : k = n <;> simp [Free, afterRun?, plain, this, same]

theorem runAfter_append (k : Nat) (a b : Text) : runAfter k (a ++ b) = runAfter (runAfter k a) b := by
  simp [runAfter]

theorem runAfter_eq_zero (plain : EndsUnticked a) (some : a ≠ []) : runAfter k a = 0 := by
  have shape := List.dropLast_concat_getLast some
  rw [← shape, runAfter_append]
  have last : isBacktick (a.getLast some) = false := plain _ (List.getLast?_eq_some_getLast some)
  simp [runAfter, last]

theorem runAfter_zero (plain : EndsUnticked a) : runAfter 0 a = 0 := by
  by_cases some : a = []
  · simp [some, runAfter]
  · exact runAfter_eq_zero plain some

theorem plain_of_all (all : a.all (!isBacktick ·) = true) : ∀ c ∈ a, isBacktick c = false := by
  simpa using all

theorem free_of_plain (positive : 0 < n) (plain : ∀ c ∈ a, isBacktick c = false) : Free n a := by
  induction a with
  | nil => simpa [Free, afterRun?] using Nat.ne_of_lt positive
  | cons c a ih =>
    have : (0 == n) = false := by simpa using Nat.ne_of_lt positive
    simpa [Free, afterRun?, plain c, this] using ih fun d inside => plain d (List.mem_cons_of_mem _ inside)

theorem free_append_iff (positive : 0 < n) (last : EndsUnticked a) : Free n (a ++ s) ↔ Free n a ∧ Free n s := by
  have split : ∀ r, afterRun? n 0 (a ++ r) = none → Free n a := by
    intro r none
    have alone := afterRun?_append none []
    rw [List.append_nil, runAfter_zero last] at alone
    exact alone.trans (free_of_plain positive (by simp))
  constructor
  · intro none
    refine ⟨split s none, ?_⟩
    rw [Free, ← runAfter_zero last, ← afterRun?_append none s]
    exact none
  · rintro ⟨front, back⟩
    have pass := afterRun?_append (s := []) (by simpa [Free] using front) s
    rw [runAfter_zero last] at pass
    exact pass.trans back

theorem free_cons_iff (positive : 0 < n) {c : Char} (plain : isBacktick c = false) : Free n (c :: s) ↔ Free n s := by
  have last : EndsUnticked [c] := by
    intro d same
    obtain rfl : c = d := by simpa using same
    exact plain
  have single : Free n [c] := free_of_plain positive (by simpa using plain)
  simpa [single] using free_append_iff (a := [c]) (s := s) positive last

theorem free_append_unticked (positive : 0 < n) (start : Unticked s) : Free n (a ++ s) ↔ Free n a ∧ Free n s := by
  have alone : ∀ m, afterRun? n m [] = none ↔ m ≠ n := fun m => by simp [afterRun?]
  constructor
  · intro none
    have pass := afterRun?_append none s
    have ends := afterRun?_append none []
    have here := (afterRun?_eq_none_iff positive start).mp (pass.symm.trans none)
    refine ⟨?_, here.2⟩
    rw [List.append_nil] at ends
    exact ends.trans ((alone _).mpr here.1)
  · rintro ⟨front, back⟩
    have front' : afterRun? n 0 (a ++ []) = none := by simpa [Free] using front
    have pass := afterRun?_append front' s
    have ends := afterRun?_append front' []
    exact pass.trans ((afterRun?_eq_none_iff positive start).mpr ⟨(alone _).mp (ends.symm.trans front'), back⟩)

end NotebookPages.Markup
