import Mathlib.Data.List.Induction
import NotebookPages.Proofs.Storage.Publishing

/-! Trees in which every entry lies in a directory, and paths that lead straight down. Such a path names one location whatever is
there, and what was there before a tree has grown is found in the same way as after it. -/

namespace NotebookPages.FileTree

variable {t u : FileTree} {l d s : Location} {p base : Path} {n : Text} {parts : List Text} {e : Entry}

/-- Every entry lies in a directory. -/
def Nested (t : FileTree) : Prop := ∀ d n, (t.get? (d ++ [n])).isSome = true → t.get? d = some .directory

/-- The location that a straight path names. -/
def place (t : FileTree) (p : Path) : Location := t.start p ++ Path.names p

theorem nested_of_entries (inside : ∀ x ∈ t.entries, t.get? x.1.dropLast = some .directory) : t.Nested := by
  intro d n there
  rw [get?, if_neg (by simp)] at there
  obtain ⟨e, found⟩ := Option.isSome_iff_exists.mp there
  obtain ⟨front, back, whole, -⟩ := List.lookup_eq_some_iff.mp found
  simpa using inside (d ++ [n], e) (by simp [whole])

theorem Nested.above (nested : t.Nested) {way : List Text} (there : (t.get? (d ++ way)).isSome = true) (down : way ≠ []) :
    t.get? d = some .directory := by
  induction way using List.reverseRecOn with
  | nil => exact absurd rfl down
  | append_singleton way n ih =>
    rw [← List.append_assoc] at there
    have directory := nested (d ++ way) n there
    by_cases last : way = []
    · rwa [last, List.append_nil] at directory
    · exact ih (by rw [directory]; rfl) last

theorem Nested.isSome_above (nested : t.Nested) {way : List Text} (there : (t.get? (d ++ way)).isSome = true) :
    (t.get? d).isSome = true := by
  by_cases down : way = []
  · rwa [down, List.append_nil] at there
  · rw [nested.above there down]
    rfl

theorem Nested.put (nested : t.Nested) (inside : t.get? d = some .directory)
    (kind : e = .directory ∨ t.get? (d ++ [n]) ≠ some .directory) : (t.put (d ++ [n]) e).Nested := by
  intro a m there
  rw [get?_put _ _ _ _ (by simp)] at there ⊢
  split at there
  next same =>
    obtain ⟨rfl, -⟩ := List.append_inj' same rfl
    rwa [if_neg (by simp)]
  next =>
    have directory := nested a m there
    split
    next same =>
      rcases kind with rfl | other
      · rfl
      · exact absurd (same ▸ directory) other
    next => exact directory

theorem Nested.prepare (nested : t.Nested) (p : Path) : (t.prepare p).1.Nested := by
  refine prepare_invariant t p nested fun _ _ _ _ v w nested made => ?_
  obtain ⟨d, n, -, inside, -, rfl, -⟩ := makeDirectory_ok made
  exact nested.put inside (Or.inl rfl)

theorem Nested.replaced {keep : Bool} {bytes : Bytes} (nested : t.Nested) (replaced : Replaced t u keep base n bytes d) : u.Nested := by
  have copied : (t.withBackup keep (d ++ [n])).Nested := by
    have beside := replaced.beside
    unfold FileTree.withBackup
    split
    next old there =>
      have free := beside rfl old there
      rw [backupOf_append] at free ⊢
      exact nested.put replaced.leads.2 (Or.inr free)
    next => exact nested
  have directory : d ≠ backupOf (d ++ [n]) := by simp [backupOf_append]
  rw [replaced.result]
  refine copied.put ?_ (Or.inr ?_)
  · rw [get?_withBackup t keep directory, replaced.leads.2]
  · rw [get?_withBackup t keep (page_ne_backupOf d n)]
    exact replaced.free

theorem Nested.publish {keep : Bool} {content : Text} {r : Except PublishError (Option Path)} (nested : t.Nested)
    (result : t.publish keep p content = (u, r)) : u.Nested := by
  cases r with
  | error e =>
    rw [publish_error result]
    exact nested.prepare p
  | ok kept =>
    obtain ⟨base, n, t', d, rfl, prepared, replaced⟩ := publish_ok result
    have made : t'.Nested := by simpa [prepared] using nested.prepare (Path.join base n)
    exact made.replaced replaced

theorem walk_straight (straight : ['.', '.'] ∉ parts) (found : t.walk s parts = .ok l) : l = s ++ parts.filter (!Path.isIdle ·) := by
  induction parts generalizing s with
  | nil => simpa using (Except.ok.inj found).symm
  | cons part parts ih =>
    obtain ⟨other, straight⟩ : part ≠ ['.', '.'] ∧ ['.', '.'] ∉ parts := by simpa [eq_comm] using straight
    obtain ⟨-, -, rest⟩ := walk_cons_iff.mp found
    rw [ih straight rest, next]
    by_cases idle : Path.isIdle part = true
    · simp [idle]
    · simp [idle, other]

theorem straight_parts (straight : Path.Straight p) : ['.', '.'] ∉ Text.split (· == '/') p := by
  intro inside
  exact straight (List.mem_filter.mpr ⟨inside, rfl⟩)

theorem place_of_locate (straight : Path.Straight p) (found : t.locate p = .ok l) : l = t.place p := by
  rw [locate] at found
  split at found
  next => cases found
  next => exact walk_straight (straight_parts straight) found

theorem Nested.walk (nested : t.Nested) (grows : t.Grows u) (straight : ['.', '.'] ∉ parts) (there : (t.get? l).isSome = true)
    (found : u.walk s parts = .ok l) : t.walk s parts = .ok l := by
  have directory : ∀ {m way}, l = m ++ way → u.get? m = some .directory → t.get? m = some .directory := by
    rintro m way rfl directory
    have some := nested.isSome_above there
    cases entry : t.get? m with
    | none => simp [entry] at some
    | some e =>
      cases e with
      | directory => rfl
      | file content =>
        obtain ⟨content', file⟩ := grows.file entry
        rw [file] at directory
        cases directory
  induction parts generalizing s with
  | nil => exact found
  | cons part parts ih =>
    have whole := walk_straight straight found
    obtain ⟨other, straight⟩ : part ≠ ['.', '.'] ∧ ['.', '.'] ∉ parts := by simpa [eq_comm] using straight
    obtain ⟨here, ahead, rest⟩ := walk_cons_iff.mp found
    refine walk_cons_iff.mpr ⟨directory whole here, ?_, ih straight rest⟩
    by_cases idle : Path.isIdle part = true
    · exact Or.inl idle
    · obtain ⟨short, -⟩ := (ahead.resolve_left idle).resolve_left other
      have below : (t.get? (s ++ [part] ++ parts.filter (!Path.isIdle ·))).isSome = true := by
        rw [whole, List.filter_cons_of_pos (by simp [idle])] at there
        rwa [List.append_assoc, List.singleton_append]
      exact Or.inr (Or.inr ⟨short, nested.isSome_above below⟩)

/-- What was there before the tree has grown was found in the same way. -/
theorem Nested.locate (nested : t.Nested) (grows : t.Grows u) (straight : Path.Straight p) (there : (t.get? l).isSome = true)
    (found : u.locate p = .ok l) : t.locate p = .ok l := by
  rw [FileTree.locate] at found ⊢
  split at found
  next => cases found
  next =>
    rw [start, grows.current] at found
    exact nested.walk grows (straight_parts straight) there found

end NotebookPages.FileTree
