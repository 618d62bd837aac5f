import NotebookPages.Path.Basic
import NotebookPages.Proofs.Text.Cut
import NotebookPages.Proofs.Text.Lines
import NotebookPages.Proofs.Text.Trim

/-! The names on the way that a path describes. A name within a directory is found under the names of the directory, and so is
the backup beside it, however the directory is written. -/

namespace NotebookPages.Path

variable {p q base front : Path} {n : Text}

/-- The names on the way, of which `..` is one. -/
def names (p : Path) : List Text := (Text.split (· == '/') p).filter (!isIdle ·)

/-- A part of a path that leads on. -/
structure Solid (n : Text) : Prop where
  whole : '/' ∉ n
  some : n ≠ []
  here : n ≠ ['.']

/-- A name that a file can have in its directory. -/
structure Proper (n : Text) : Prop extends Solid n where
  up : n ≠ ['.', '.']

theorem solid_iff : Solid n ↔ '/' ∉ n ∧ isIdle n = false := by
  constructor
  · intro solid
    exact ⟨solid.whole, by simp [isIdle, solid.some, solid.here]⟩
  · rintro ⟨whole, named⟩
    rw [isIdle, Bool.or_eq_false_iff, List.isEmpty_eq_false_iff, beq_eq_false_iff_ne] at named
    exact ⟨whole, named.1, named.2⟩

theorem Solid.notIdle (solid : Solid n) : isIdle n = false := (solid_iff.mp solid).2

theorem split_of_whole (whole : '/' ∉ n) : Text.split (· == '/') n = [n] :=
  Text.split_of_none fun _ inside => beq_eq_false_iff_ne.mpr fun same => whole (same ▸ inside)

theorem names_append (p q : Path) : names (p ++ '/' :: q) = names p ++ names q := by
  rw [names, Text.split_append_sep rfl, List.filter_append]
  rfl

theorem names_slashes {v : Text} (slashes : ∀ c ∈ v, (c == '/') = true) (p : Path) : names (p ++ v) = names p := by
  induction v generalizing p with
  | nil => rw [List.append_nil]
  | cons c v ih =>
    have same : c = '/' := by simpa using slashes c List.mem_cons_self
    have others := ih (fun d inside => slashes d (List.mem_cons_of_mem c inside)) []
    rw [same, names_append, ← List.nil_append v, others]
    exact List.append_nil _

/-- What stands before the last name of a path. -/
def Opens (front : Path) : Prop := front = [] ∨ ∃ p, front = p ++ ['/']

/-- A path is cut at its last slash. -/
theorem exists_opens (p : Path) : ∃ front n, p = front ++ n ∧ Opens front ∧ '/' ∉ n := by
  refine ⟨(p.reverse.dropWhile (· != '/')).reverse, (p.reverse.takeWhile (· != '/')).reverse, ?_, ?_, ?_⟩
  · rw [← List.reverse_append, List.takeWhile_append_dropWhile, List.reverse_reverse]
  · cases shape : p.reverse.dropWhile (· != '/') with
    | nil => exact Or.inl rfl
    | cons c rest =>
      have stop := List.head?_dropWhile_not (· != '/') p.reverse
      rw [shape] at stop
      obtain rfl : c = '/' := by simpa using stop
      exact Or.inr ⟨rest.reverse, by simp⟩
  · intro inside
    simpa using List.mem_takeWhile_imp (List.mem_reverse.mp inside)

theorem split_opens (opens : Opens front) (whole : '/' ∉ n) :
    ∃ parts, Text.split (· == '/') (front ++ n) = parts ++ [n] ∧ parts.filter (!isIdle ·) = names front := by
  rcases opens with rfl | ⟨p, rfl⟩
  · exact ⟨[], split_of_whole whole, rfl⟩
  · refine ⟨Text.split (· == '/') p, ?_, ?_⟩
    · rw [List.append_assoc, List.singleton_append, Text.split_append_sep rfl, split_of_whole whole]
    · rw [names_slashes (by simp)]
      rfl

theorem isAbsolute_opens (opens : Opens front) (whole : '/' ∉ n) : isAbsolute (front ++ n) = isAbsolute front := by
  rcases opens with rfl | ⟨p, rfl⟩
  · cases n with
    | nil => rfl
    | cons c n =>
      have other : c ≠ '/' := fun same => whole (same ▸ List.mem_cons_self)
      simpa [isAbsolute] using other
  · cases p <;> rfl

theorem Proper.relative (proper : Proper n) : isAbsolute n = false := isAbsolute_opens (Or.inl rfl) proper.whole

theorem opens_of_ended (ended : (base.isEmpty || base.getLast? == some '/') = true) : Opens base := by
  rcases Bool.or_eq_true_iff.mp ended with none | slash
  · exact Or.inl (List.isEmpty_iff.mp none)
  · exact Or.inr ⟨base.dropLast, (List.dropLast_append_getLast? '/' (by simpa using slash)).symm⟩

/-- All names are read from within a path in the same way. -/
theorem join_opens (base : Path) : ∃ front, Opens front ∧ (∀ n, Proper n → join base n = front ++ n) ∧
    names front = names base ∧ isAbsolute front = isAbsolute base := by
  by_cases ended : (base.isEmpty || base.getLast? == some '/') = true
  · refine ⟨base, opens_of_ended ended, fun n proper => ?_, rfl, rfl⟩
    rw [join, proper.relative, if_neg Bool.false_ne_true, if_pos ended]
  · refine ⟨base ++ ['/'], Or.inr ⟨base, rfl⟩, fun n proper => ?_, names_slashes (by simp) base, ?_⟩
    · rw [join, proper.relative, if_neg Bool.false_ne_true, if_neg ended, List.append_assoc]
      rfl
    · cases base with
      | nil => exact absurd rfl ended
      | cons c base => rfl

theorem join_front (opens : Opens front) (proper : Proper n) : join front n = front ++ n := by
  have relative := proper.relative
  rw [join, relative, if_neg Bool.false_ne_true, if_pos]
  rcases opens with rfl | ⟨p, rfl⟩
  · rfl
  · simp

theorem names_opens (opens : Opens front) (whole : '/' ∉ n) (named : isIdle n = false) :
    names (front ++ n) = names front ++ [n] := by
  obtain ⟨parts, shape, same⟩ := split_opens opens whole
  rw [names, shape, List.filter_append, same]
  simp [named]

theorem eq_of_before?_dot {bare : Path} (dotted : Text.before? "/." bare = some front) : bare = front ++ ['/', '.'] := by
  obtain ⟨rest, found, rfl⟩ := Option.map_eq_some_iff.mp dotted
  simpa using congrArg List.reverse (Text.isPrefixOf?_eq_some_iff.mp found)

/-- What depends neither on slashes at the end of a path nor on a dot behind them is the same when those are dropped. -/
theorem trimIdle_invariant {α : Type} {f : Path → α} (ends : ∀ p v : Path, p ≠ [] → (∀ c ∈ v, (c == '/') = true) → f (p ++ v) = f p)
    (dotted : ∀ p : Path, f (p ++ ['/', '.']) = f (p ++ ['/'])) (fuel : Nat) (p : Path) : f (trimIdle fuel p) = f p := by
  induction fuel generalizing p with
  | zero => rfl
  | succ fuel ih =>
    obtain ⟨slashes, whole, all, -⟩ := Text.dropEndWhile_split (· == '/') p
    rw [trimIdle]
    generalize Text.dropEndWhile (· == '/') p = bare at whole
    subst whole
    by_cases none : bare = []
    · subst none
      cases slashes with
      | nil => rfl
      | cons c slashes =>
        have first := ends [c] slashes (List.cons_ne_nil c []) fun d inside => all d (List.mem_cons_of_mem c inside)
        exact first.symm
    · simp only [List.isEmpty_iff, none, if_false]
      rw [ends bare slashes none all]
      split
      next front found => rw [ih, eq_of_before?_dot found, dotted]
      next => rfl

/-- What is dropped at the end of a path are no names. -/
theorem trimIdle_keeps (fuel : Nat) (p : Path) :
    names (trimIdle fuel p) = names p ∧ isAbsolute (trimIdle fuel p) = isAbsolute p := by
  constructor
  · apply trimIdle_invariant
    · intro p v _ slashes
      exact names_slashes slashes p
    · intro p
      exact (names_append p ['.']).trans (names_append p []).symm
  · apply trimIdle_invariant
    · intro p v some _
      cases p with
      | nil => exact absurd rfl some
      | cons c p => rfl
    · intro p
      cases p <;> rfl

theorem dropEndWhile_opens (front : Path) (solid : Solid n) : Text.dropEndWhile (· == '/') (front ++ n) = front ++ n := by
  obtain ⟨m, c, rfl⟩ := (List.eq_nil_or_concat' n).resolve_left solid.some
  have other : (c == '/') = false := beq_eq_false_iff_ne.mpr fun same => solid.whole (by simp [same])
  simp [Text.dropEndWhile, other]

theorem trimIdle_opens (front : Path) (solid : Solid n) : trimIdle (front ++ n).length (front ++ n) = front ++ n := by
  have undotted : Text.before? "/." (front ++ n) = none := by
    rw [Option.eq_none_iff_forall_ne_some]
    intro rest dotted
    obtain ⟨m, c, rfl⟩ := (List.eq_nil_or_concat' n).resolve_left solid.some
    obtain ⟨shape, dot⟩ : front ++ m = rest ++ ['/'] ∧ c = '.' := by
      have whole := eq_of_before?_dot dotted
      rw [← List.append_assoc, show rest ++ ['/', '.'] = rest ++ ['/'] ++ ['.'] by simp] at whole
      simpa using List.append_inj' whole rfl
    rcases List.eq_nil_or_concat' m with rfl | ⟨m, d, rfl⟩
    · exact solid.here (by rw [dot]; rfl)
    · rw [← List.append_assoc] at shape
      have slash : d = '/' := by simpa using (List.append_inj' shape rfl).2
      exact solid.whole (by simp [slash])
  cases length : (front ++ n).length with
  | zero => simp [solid.some] at length
  | succ fuel =>
    rw [trimIdle, dropEndWhile_opens front solid, undotted]
    simp [solid.some]

theorem withoutLast_opens (opens : Opens front) (solid : Solid n) : withoutLast (front ++ n) = front := by
  have name : ∀ c ∈ n.reverse, (c != '/') = true := by
    intro c inside
    simpa using fun same : c = '/' => solid.whole (same ▸ List.mem_reverse.mp inside)
  have slash : ∀ c, front.reverse.head? = some c → (c != '/') = false := by
    intro c first
    rcases opens with rfl | ⟨p, rfl⟩
    · cases first
    · obtain rfl : '/' = c := by simpa using first
      rfl
  rw [withoutLast, dropEndWhile_opens front solid, List.reverse_append, Text.dropWhile_stop name slash, List.reverse_reverse]

theorem last_component (opens : Opens front) (whole : '/' ∉ n) (named : isIdle n = false) :
    (components (front ++ n)).getLast? = some (ofPart n) := by
  rw [components, show (Text.split (· == '/') (front ++ n)).filter (!isIdle ·) = names front ++ [n] from names_opens opens whole named,
    List.map_append, ← List.append_assoc, List.map_singleton, List.getLast?_append]
  rfl

theorem Proper.component (proper : Proper n) : ofPart n = .name n := if_neg proper.up

theorem fileName?_opens (opens : Opens front) (proper : Proper n) : fileName? (front ++ n) = some n := by
  rw [fileName?, last_component opens proper.whole proper.notIdle, proper.component]

theorem parent?_front (opens : Opens front) (solid : Solid n) :
    parent? (front ++ n) = some (trimIdle (front ++ n).length front) := by
  have last : (components (front ++ n)).getLast? = some .up ∨ (components (front ++ n)).getLast? = some (.name n) := by
    rw [last_component opens solid.whole solid.notIdle, ofPart]
    split
    · exact Or.inl rfl
    · exact Or.inr rfl
  rw [parent?]
  rcases last with up | name
  · rw [up, trimIdle_opens front solid, withoutLast_opens opens solid]
  · rw [name, trimIdle_opens front solid, withoutLast_opens opens solid]

theorem parent?_opens (opens : Opens front) (solid : Solid n) :
    ∃ above, parent? (front ++ n) = some above ∧ names above = names front ∧ isAbsolute above = isAbsolute front :=
  ⟨_, parent?_front opens solid, trimIdle_keeps _ front⟩

theorem names_join (base : Path) (relative : isAbsolute q = false) : names (join base q) = names base ++ names q := by
  rw [join, relative, if_neg Bool.false_ne_true]
  split
  next ended =>
    rcases opens_of_ended ended with rfl | ⟨front, rfl⟩
    · rfl
    · rw [List.append_assoc, List.singleton_append, names_append, names_slashes (by simp)]
  next => exact names_append base q

/-- No part of the path leads up. -/
def Straight (p : Path) : Prop := ['.', '.'] ∉ names p

instance (p : Path) : Decidable (Straight p) := inferInstanceAs (Decidable (['.', '.'] ∉ names p))

theorem Straight.join (straight : Straight base) (relative : isAbsolute q = false) (further : Straight q) : Straight (join base q) := by
  rw [Straight, names_join base relative]
  exact fun inside => (List.mem_append.mp inside).elim straight further

theorem Straight.of_join (straight : Straight (Path.join base q)) (relative : isAbsolute q = false) : Straight base := fun up =>
  straight (names_join base relative ▸ List.mem_append_left _ up)

theorem Proper.straight (proper : Proper n) : Straight n := by
  have names : names n = [n] := names_opens (Or.inl rfl) proper.whole proper.notIdle
  rw [Straight, names, List.mem_singleton]
  exact proper.up.symm

theorem parent?_join (base : Path) (proper : Proper n) :
    ∃ above, parent? (join base n) = some above ∧ names above = names base ∧ isAbsolute above = isAbsolute base := by
  obtain ⟨front, opens, whole, same, rooted⟩ := join_opens base
  rw [whole n proper, ← same, ← rooted]
  exact parent?_opens opens proper.toSolid

theorem fileName?_up (opens : Opens front) : fileName? (front ++ ['.', '.']) = none := by
  rw [fileName?, last_component opens (by decide) (by decide)]
  rfl

theorem fileName?_join (base : Path) (proper : Proper n) : fileName? (join base n) = some n := by
  obtain ⟨front, opens, whole, -⟩ := join_opens base
  rw [whole n proper, fileName?_opens opens proper]

/-- The backup of a file stands beside it. -/
theorem backup_join (base : Path) (proper : Proper n) :
    ∃ above, backup (join base n) = join above (n ++ ".backup") ∧ names above = names base ∧ isAbsolute above = isAbsolute base := by
  obtain ⟨above, found, same⟩ := parent?_join base proper
  obtain ⟨front, opens, whole, -⟩ := join_opens base
  refine ⟨above, ?_, same⟩
  rw [backup, withFileName, found, whole n proper, fileName?_opens opens proper]
  rfl

theorem Proper.backup (proper : Proper n) : Proper (n ++ ".backup") where
  whole := by simpa using proper.whole
  some := by simp
  here := fun same => by simpa using congrArg List.length same
  up := fun same => by simpa using congrArg List.length same

theorem splitName_extension {stem e : Text} (named : stem ≠ []) (dotless : '.' ∉ e) :
    splitName (stem ++ '.' :: e) = (stem, some e) := by
  have last : ((stem ++ '.' :: e).reverse.takeWhile (· != '.')).reverse = e := by
    have all : ∀ c ∈ e.reverse, (c != '.') = true := fun c inside =>
      bne_iff_ne.mpr fun dot => dotless (dot ▸ List.mem_reverse.mp inside)
    rw [List.reverse_append, List.reverse_cons, List.append_assoc, List.takeWhile_append_of_pos all]
    simp
  have length : (stem ++ '.' :: e).length = stem.length + (e.length + 1) := by simp
  have shorter : e.length ≠ stem.length + (e.length + 1) := by omega
  rw [splitName, last, length]
  simp [named, Nat.sub_sub, shorter]

/-- A copy has an extension of its own. -/
theorem extension?_backup (name : fileName? p = some (n ++ ".backup")) (named : n ≠ []) : extension? p = some "backup" := by
  rw [extension?, name]
  exact congrArg Prod.snd (splitName_extension (e := "backup") named (by decide))

theorem ofPart_inj (same : ofPart p = ofPart q) : p = q := by
  unfold ofPart at same
  split at same <;> split at same
  next up up' => rw [up, up']
  next => cases same
  next => cases same
  next => exact Component.name.inj same

theorem ofPart_ne (part : Text) : ofPart part ≠ .root ∧ ofPart part ≠ .here := by
  unfold ofPart
  split <;> simp

theorem root_mem_components : .root ∈ components p ↔ isAbsolute p = true := by
  have later : .root ∉ (names p).map ofPart := fun inside => by
    obtain ⟨part, -, same⟩ := List.mem_map.mp inside
    exact (ofPart_ne part).1 same
  rw [show components p = _ ++ (names p).map ofPart from rfl, List.mem_append, or_iff_left later]
  split
  next rooted => simp [rooted]
  next unrooted => split <;> simp [unrooted]

theorem filter_components (p : Path) : (components p).filter (fun c => c ≠ .root ∧ c ≠ .here) = (names p).map ofPart := by
  have kept : ((names p).map ofPart).filter (fun c => c ≠ .root ∧ c ≠ .here) = (names p).map ofPart := by
    refine List.filter_eq_self.mpr fun c inside => ?_
    obtain ⟨part, -, rfl⟩ := List.mem_map.mp inside
    exact decide_eq_true (ofPart_ne part)
  rw [components, List.filter_append]
  refine (congrArg _ kept).trans ?_
  split
  · rfl
  · split <;> rfl

/-- Paths that are the same in writing go the same way. -/
theorem names_of_same (alike : same p q = true) : names p = names q ∧ isAbsolute p = isAbsolute q := by
  have alike : components p = components q := beq_iff_eq.mp alike
  constructor
  · refine List.map_injective_iff.mpr (fun _ _ => ofPart_inj) ?_
    rw [← filter_components, alike, filter_components]
  · rw [Bool.eq_iff_iff, ← root_mem_components, alike, root_mem_components]

theorem getLast?_components (last : (names p).getLast? = some n) : (components p).getLast? = some (ofPart n) := by
  rw [show components p = _ ++ (names p).map ofPart from rfl, List.getLast?_append, List.getLast?_map, last]
  rfl

theorem fileName?_straight (straight : Straight p) : fileName? p = (names p).getLast? := by
  rw [fileName?]
  cases last : (names p).getLast? with
  | none =>
    rw [show components p = _ ++ (names p).map ofPart from rfl, List.getLast?_eq_none_iff.mp last, List.map_nil, List.append_nil]
    by_cases rooted : isAbsolute p = true
    · rw [if_pos rooted]
      rfl
    · rw [if_neg rooted]
      by_cases here : ((Text.split (· == '/') p).head? == some ['.']) = true
      · rw [if_pos here]
        rfl
      · rw [if_neg here]
        rfl
  | some n =>
    have down : ¬ n = ".." := by
      rintro rfl
      exact straight (List.mem_of_getLast? last)
    rw [getLast?_components last, ofPart, if_neg down]

end NotebookPages.Path
