import NotebookPages.Proofs.Path.Parents

/-! Paths as ways through directories, followed part by part from the directory that all of them begin in. A way that leads above it
leads nowhere. -/

namespace NotebookPages.Path

variable {p q front : Path} {n : Text} {place : List Text} {way : List Component}

/-- The place that a way leads to, its innermost name first, from the place where the way begins. -/
def walk : List Text → List Component → Option (List Text)
  | place, [] => some place
  | place, .name n :: way => walk (n :: place) way
  | _ :: place, .up :: way => walk place way
  | [], .up :: _ => none
  | place, .here :: way => walk place way
  | _, .root :: _ => none

/-- Where a path leads, by names alone; a path from a root and one that leads above where it begins lead nowhere. -/
def arrival (p : Path) : Option (List Text) := (walk [] (components p)).map List.reverse

theorem walk_filter (place : List Text) (way : List Component) : walk place (way.filter (· != .here)) = walk place way := by
  induction way generalizing place with
  | nil => rfl
  | cons c way ih =>
    cases c with
    | root => cases place <;> rfl
    | here => exact (ih place).trans (by cases place <;> rfl)
    | up =>
      cases place with
      | nil => rfl
      | cons n place => exact ih place
    | name n => exact (by cases place <;> exact ih _)

theorem walk_names (place names : List Text) (way : List Component) :
    walk place (names.map .name ++ way) = walk (names.reverse ++ place) way := by
  induction names generalizing place with
  | nil => rfl
  | cons n names ih =>
    have first : walk place (.name n :: (names.map .name ++ way)) = walk (n :: place) (names.map .name ++ way) := by
      cases place <;> rfl
    rw [List.map_cons, List.cons_append, first, ih, List.reverse_cons, List.append_assoc]
    rfl

/-- Each step up leaves a name behind, as long as there are any. -/
theorem walk_ups (place : List Text) (k : Nat) (way : List Component) :
    walk place (List.replicate k .up ++ way) = if k ≤ place.length then walk (place.drop k) way else none := by
  induction k generalizing place with
  | zero => rfl
  | succ k ih =>
    cases place with
    | nil => rfl
    | cons n place =>
      rw [List.replicate_succ, List.cons_append, List.length_cons, List.drop_succ_cons]
      simp only [Nat.add_le_add_iff_right]
      exact ih place

theorem components_eq (p : Path) : components p =
    (if isAbsolute p then [.root] else if (Text.split (· == '/') p).head? == some ['.'] then [.here] else []) ++
      (names p).map ofPart := rfl

theorem components_append (some : p ≠ []) (q : Path) : components (p ++ '/' :: q) = components p ++ (names q).map ofPart := by
  have rooted : isAbsolute (p ++ '/' :: q) = isAbsolute p := by
    cases p with
    | nil => exact absurd rfl some
    | cons c p => rfl
  have first : (Text.split (· == '/') (p ++ '/' :: q)).head? = (Text.split (· == '/') p).head? := by
    rw [Text.split_append_sep rfl, List.head?_append_of_ne_nil _ (Text.split_ne_nil p)]
  rw [components_eq, rooted, first, names_append, List.map_append, ← List.append_assoc]
  rfl

theorem components_slashes {v : Text} (some : p ≠ []) (slashes : ∀ c ∈ v, (c == '/') = true) :
    components (p ++ v) = components p := by
  cases v with
  | nil => rw [List.append_nil]
  | cons c v =>
    obtain rfl : c = '/' := by simpa using slashes c List.mem_cons_self
    have none : names v = [] := names_slashes (fun d inside => slashes d (List.mem_cons_of_mem _ inside)) []
    rw [components_append some, none]
    exact List.append_nil _

/-- What is dropped at the end of a path is no part of it, not even a dot in front. -/
theorem components_trimIdle (fuel : Nat) (p : Path) : components (trimIdle fuel p) = components p := by
  apply trimIdle_invariant
  · intro p v some slashes
    exact components_slashes some slashes
  · intro p
    by_cases start : p = []
    · subst start
      rfl
    · exact (components_append start ['.']).trans (components_append start []).symm

theorem components_opens (opens : Opens front) (solid : Solid n) : components (front ++ n) = components front ++ [ofPart n] := by
  have alone : names n = [n] := names_opens (Or.inl rfl) solid.whole solid.notIdle
  rcases opens with rfl | ⟨q, rfl⟩
  · have relative : isAbsolute n = false := isAbsolute_opens (Or.inl rfl) solid.whole
    have undotted : ((Text.split (· == '/') n).head? == some ['.']) = false := by
      rw [split_of_whole solid.whole]
      simpa using solid.here
    rw [List.nil_append, components_eq, relative, undotted, alone]
    rfl
  · rw [List.append_assoc, List.singleton_append]
    by_cases start : q = []
    · subst start
      have same : names ([] ++ '/' :: n) = [n] := (names_append [] n).trans alone
      rw [components_eq, same]
      rfl
    · rw [components_append start, components_append start, alone]
      simp
      rfl

theorem components_join (base : Path) (proper : Proper n) : components (join base n) = components base ++ [.name n] := by
  have alone : names n = [n] := names_opens (Or.inl rfl) proper.whole proper.notIdle
  rw [join, proper.relative, if_neg Bool.false_ne_true]
  split
  next ended => rw [components_opens (opens_of_ended ended) proper.toSolid, proper.component]
  next open' =>
    have start : base ≠ [] := by
      rintro rfl
      exact open' rfl
    rw [components_append start, alone, List.map_singleton, proper.component]

/-- The directory of a file is its path without the last part. -/
theorem components_parent? (name : fileName? p = some n) :
    ∃ above, parent? p = some above ∧ components p = components above ++ [.name n] := by
  have last : (components p).getLast? = some (.name n) := by
    unfold fileName? at name
    split at name
    next m found =>
      obtain rfl := Option.some.inj name
      exact found
    next => cases name
  have same := components_trimIdle p.length p
  have found : parent? p = some (trimIdle p.length (withoutLast (trimIdle p.length p))) := by
    rw [parent?, last]
  rcases trimIdle_cases (Nat.le_refl p.length) with empty | root | here | ⟨front, m, whole, opens, solid⟩
  · rw [← same, empty] at last
    cases last
  · rw [← same, root] at last
    cases last
  · rw [← same, here] at last
    cases last
  · refine ⟨_, found, ?_⟩
    rw [components_trimIdle, whole, withoutLast_opens opens solid]
    rw [whole, components_opens opens solid] at same
    rw [← same, List.getLast?_concat] at last
    rw [← same, Option.some.inj last]

theorem solid_of_mem_names (inside : n ∈ names p) : Solid n := by
  obtain ⟨part, named⟩ := List.mem_filter.mp inside
  refine solid_iff.mpr ⟨fun slash => ?_, by simpa using named⟩
  simpa using Text.not_sep_of_mem_split part '/' slash

theorem text_ofPart (part : Text) : (ofPart part).text = part := by
  unfold ofPart
  split
  next up => exact up.symm
  next => rfl

end NotebookPages.Path
