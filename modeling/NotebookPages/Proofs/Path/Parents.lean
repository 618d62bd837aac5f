import NotebookPages.Proofs.Path.Names

/-! The directories on the way to a path. The directory of a name is written in the same way for every name, and each directory on
the way is named by the first of the names on the way. -/

namespace NotebookPages.Path

variable {p q base front above : Path} {n m : Text}

theorem length_dropEndWhile_le (p : Path) : (Text.dropEndWhile (· == '/') p).length ≤ p.length := by
  obtain ⟨v, whole, -⟩ := Text.dropEndWhile_split (· == '/') p
  have length := congrArg List.length whole
  rw [List.length_append] at length
  omega

/-- Each round of trimming makes the path shorter. -/
theorem length_of_dotted (dotted : Text.before? "/." (Text.dropEndWhile (· == '/') p) = some front) :
    (front ++ ['/']).length < p.length := by
  have bare := length_dropEndWhile_le p
  rw [eq_of_before?_dot dotted] at bare
  simp only [List.length_append, List.length_cons, List.length_nil] at bare ⊢
  omega

theorem trimIdle_isPrefix (fuel : Nat) (p : Path) : trimIdle fuel p <+: p := by
  induction fuel generalizing p with
  | zero => exact List.prefix_rfl
  | succ fuel ih =>
    have bare : Text.dropEndWhile (· == '/') p <+: p := by
      obtain ⟨v, whole, -⟩ := Text.dropEndWhile_split (· == '/') p
      exact ⟨v, whole.symm⟩
    rw [trimIdle]
    split
    · exact List.take_prefix 1 p
    · split
      next front dotted =>
        rw [eq_of_before?_dot dotted] at bare
        exact (ih _).trans (.trans ⟨['.'], by simp⟩ bare)
      next => exact bare

theorem trimIdle_nil (fuel : Nat) : trimIdle fuel [] = [] := by
  cases fuel <;> rfl

/-- More fuel than the path is long makes no difference. -/
theorem trimIdle_fuel {fuel fuel' : Nat} (enough : p.length ≤ fuel) (enough' : p.length ≤ fuel') :
    trimIdle fuel p = trimIdle fuel' p := by
  induction fuel generalizing fuel' p with
  | zero =>
    obtain rfl := List.length_eq_zero_iff.mp (Nat.le_zero.mp enough)
    rw [trimIdle_nil, trimIdle_nil]
  | succ fuel ih =>
    cases fuel' with
    | zero =>
      obtain rfl := List.length_eq_zero_iff.mp (Nat.le_zero.mp enough')
      rw [trimIdle_nil, trimIdle_nil]
    | succ fuel' =>
      rw [trimIdle, trimIdle]
      split
      · rfl
      · split
        next front dotted =>
          have shorter := length_of_dotted dotted
          exact ih (by omega) (by omega)
        next => rfl

/-- A path without idle parts at its end leads to where its way begins, or ends in a part that leads on. -/
theorem trimIdle_cases {fuel : Nat} (enough : p.length ≤ fuel) : trimIdle fuel p = [] ∨ trimIdle fuel p = ['/'] ∨
    trimIdle fuel p = ['.'] ∨ ∃ front n, trimIdle fuel p = front ++ n ∧ Opens front ∧ Solid n := by
  induction fuel generalizing p with
  | zero => exact Or.inl (List.length_eq_zero_iff.mp (Nat.le_zero.mp enough))
  | succ fuel ih =>
    obtain ⟨slashes, whole, all, last⟩ := Text.dropEndWhile_split (· == '/') p
    rw [trimIdle]
    split
    next none =>
      rw [List.isEmpty_iff.mp none, List.nil_append] at whole
      cases p with
      | nil => exact Or.inl rfl
      | cons c p =>
        obtain rfl : c = '/' := by simpa using all c (whole ▸ List.mem_cons_self)
        exact Or.inr (Or.inl rfl)
    next any =>
      split
      next front dotted =>
        have shorter := length_of_dotted dotted
        exact ih (by omega)
      next undotted =>
        refine Or.inr (Or.inr ?_)
        generalize Text.dropEndWhile (· == '/') p = bare at last any undotted
        obtain ⟨front, n, rfl, opens, solid⟩ := exists_opens bare
        have named : n ≠ [] := by
          rintro rfl
          rcases opens with rfl | ⟨q, rfl⟩
          · exact any rfl
          · simpa using last '/' (by simp)
        by_cases dot : n = ['.']
        · subst dot
          rcases opens with rfl | ⟨q, rfl⟩
          · exact Or.inl rfl
          · have dotted : (q ++ ['/'] ++ ['.']).reverse = ("/." : Text).reverse ++ q.reverse := by simp
            rw [Text.before?, Text.isPrefixOf?_eq_some_iff.mpr dotted] at undotted
            cases undotted
        · exact Or.inr ⟨front, n, rfl, opens, solid, named, dot⟩

/-- A path that is reached from where its way begins, one part after another. -/
inductive Reached : Path → Prop where
  | empty : Reached []
  | root : Reached ['/']
  | here : Reached ['.']
  | part {front : Path} {n : Text} (opens : Opens front) (solid : Solid n) (above : Reached (trimIdle front.length front)) :
      Reached (front ++ n)

theorem length_above_lt (front : Path) (solid : Solid n) : (trimIdle front.length front).length < (front ++ n).length := by
  have shorter := (trimIdle_isPrefix front.length front).length_le
  have named := List.length_pos_iff.mpr solid.some
  rw [List.length_append]
  omega

theorem reached_trimIdle (p : Path) : Reached (trimIdle p.length p) := by
  induction length : p.length using Nat.strongRecOn generalizing p with
  | ind k ih =>
    subst length
    have shorter := (trimIdle_isPrefix p.length p).length_le
    rcases trimIdle_cases (Nat.le_refl p.length) with empty | root | here | ⟨front, n, whole, opens, solid⟩
    · exact empty ▸ .empty
    · exact root ▸ .root
    · exact here ▸ .here
    · rw [whole] at shorter ⊢
      have named := List.length_pos_iff.mpr solid.some
      rw [List.length_append] at shorter
      exact .part opens solid (ih front.length (by omega) front rfl)

theorem parent?_part (opens : Opens front) (solid : Solid n) : parent? (front ++ n) = some (trimIdle front.length front) := by
  rw [parent?_front opens solid, trimIdle_fuel (by simp) (Nat.le_refl _)]

/-- The way to a name leads through its parent, however the path ends. -/
theorem names_parent? (straight : Straight p) (name : fileName? p = some n) :
    ∃ above, parent? p = some above ∧ names p = names above ++ [n] ∧ isAbsolute above = isAbsolute p := by
  obtain ⟨same, rooted⟩ := trimIdle_keeps p.length p
  rw [fileName?_straight straight] at name
  have down : ¬ n = ".." := by
    rintro rfl
    exact straight (List.mem_of_getLast? name)
  have found : parent? p = some (trimIdle p.length (withoutLast (trimIdle p.length p))) := by
    rw [parent?, getLast?_components name, ofPart, if_neg down]
  rcases trimIdle_cases (Nat.le_refl p.length) with empty | root | here | ⟨front, m, whole, opens, solid⟩
  · rw [← same, empty] at name
    cases name
  · rw [← same, root] at name
    cases name
  · rw [← same, here] at name
    cases name
  · rw [whole, withoutLast_opens opens solid] at found
    rw [whole, isAbsolute_opens opens solid.whole] at rooted
    rw [whole, names_opens opens solid.whole solid.notIdle] at same
    obtain ⟨kept, kept'⟩ := trimIdle_keeps p.length front
    rw [← same, List.getLast?_concat] at name
    obtain rfl := Option.some.inj name
    exact ⟨_, found, by rw [kept, same], kept'.trans rooted⟩

/-- The directory of a name is the same in writing for every name. -/
theorem parent?_join_congr (base : Path) (proper : Proper n) (proper' : Proper m) :
    parent? (join base n) = parent? (join base m) := by
  obtain ⟨front, opens, whole, -⟩ := join_opens base
  rw [whole n proper, whole m proper', parent?_part opens proper.toSolid, parent?_part opens proper'.toSolid]

theorem reached_parent? (base : Path) (proper : Proper n) (found : parent? (join base n) = some above) : Reached above := by
  obtain ⟨front, opens, whole, -⟩ := join_opens base
  rw [whole n proper, parent?_part opens proper.toSolid] at found
  obtain rfl := Option.some.inj found
  exact reached_trimIdle front

theorem ancestorsUpTo_nil (fuel : Nat) : ancestorsUpTo fuel [] = [] := by
  cases fuel <;> rfl

theorem ancestorsUpTo_part {fuel : Nat} (opens : Opens front) (solid : Solid n) : ancestorsUpTo (fuel + 1) (front ++ n) =
    (front ++ n) :: ancestorsUpTo fuel (trimIdle front.length front) := by
  have named : (front ++ n).isEmpty = false := by simp [solid.some]
  rw [ancestorsUpTo, named, parent?_part opens solid]
  rfl

theorem ancestorsUpTo_fuel (reached : Reached p) {fuel fuel' : Nat} (enough : p.length < fuel) (enough' : p.length < fuel') :
    ancestorsUpTo fuel p = ancestorsUpTo fuel' p := by
  induction reached generalizing fuel fuel' with
  | empty => rw [ancestorsUpTo_nil, ancestorsUpTo_nil]
  | root =>
    obtain ⟨k, rfl⟩ := Nat.exists_eq_add_of_lt enough
    obtain ⟨k', rfl⟩ := Nat.exists_eq_add_of_lt enough'
    rfl
  | here =>
    obtain ⟨k, rfl⟩ := Nat.exists_eq_add_of_lt enough
    obtain ⟨k', rfl⟩ := Nat.exists_eq_add_of_lt enough'
    exact congrArg (['.'] :: ·) ((ancestorsUpTo_nil _).trans (ancestorsUpTo_nil _).symm)
  | @part front n opens solid above ih =>
    have shorter := length_above_lt front solid
    obtain ⟨k, rfl⟩ := Nat.exists_eq_succ_of_ne_zero (Nat.ne_zero_of_lt enough)
    obtain ⟨k', rfl⟩ := Nat.exists_eq_succ_of_ne_zero (Nat.ne_zero_of_lt enough')
    rw [ancestorsUpTo_part opens solid, ancestorsUpTo_part opens solid]
    exact congrArg ((front ++ n) :: ·) (ih (by omega) (by omega))

theorem ancestors_part (opens : Opens front) (solid : Solid n) :
    ancestors (front ++ n) = (front ++ n) :: ancestors (trimIdle front.length front) := by
  rw [ancestors, ancestorsUpTo_part opens solid, ancestors,
    ancestorsUpTo_fuel (reached_trimIdle front) (length_above_lt front solid) (Nat.lt_succ_self _)]

/-- Each directory on the way is named by the first of the names on the way. -/
theorem names_ancestors (reached : Reached p) (inside : q ∈ ancestors p) : names q <+: names p ∧ isAbsolute q = isAbsolute p := by
  induction reached with
  | empty => cases inside
  | root =>
    obtain rfl := List.mem_singleton.mp (show q ∈ [['/']] from inside)
    exact ⟨List.prefix_rfl, rfl⟩
  | here =>
    obtain rfl := List.mem_singleton.mp (show q ∈ [['.']] from inside)
    exact ⟨List.prefix_rfl, rfl⟩
  | @part front n opens solid above ih =>
    rw [ancestors_part opens solid] at inside
    rcases List.mem_cons.mp inside with rfl | inside
    · exact ⟨List.prefix_rfl, rfl⟩
    · obtain ⟨fewer, rooted⟩ := ih inside
      obtain ⟨names, same⟩ := trimIdle_keeps front.length front
      rw [names_opens opens solid.whole solid.notIdle, isAbsolute_opens opens solid.whole, ← names, ← same]
      exact ⟨fewer.trans (List.prefix_append _ _), rooted⟩

end NotebookPages.Path
