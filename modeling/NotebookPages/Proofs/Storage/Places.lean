import NotebookPages.Proofs.Path.Names
import NotebookPages.Proofs.Results
import NotebookPages.Storage.FileTree

/-! Where the files of a directory are. A name within a directory stands at the location that the names on the way lead to, and
it stays there as long as nothing that exists goes away. -/

namespace NotebookPages.FileTree

variable {t t' u : FileTree} {l m d : Location} {base above front : Path} {n : Text} {parts : List Text} {content : Bytes}

/-- Nothing that exists goes away or changes its kind. -/
structure Grows (t t' : FileTree) : Prop where
  current : t'.current = t.current
  directory : ∀ {l}, t.get? l = some .directory → t'.get? l = some .directory
  file : ∀ {l content}, t.get? l = some (.file content) → ∃ content', t'.get? l = some (.file content')

theorem Grows.refl (t : FileTree) : t.Grows t := ⟨rfl, id, fun file => ⟨_, file⟩⟩

theorem Grows.trans (first : t.Grows t') (second : t'.Grows u) : t.Grows u where
  current := second.current.trans first.current
  directory there := second.directory (first.directory there)
  file there := by
    obtain ⟨content, there⟩ := first.file there
    exact second.file there

theorem Grows.isSome (grows : t.Grows t') (there : (t.get? l).isSome = true) : (t'.get? l).isSome = true := by
  cases entry : t.get? l with
  | none => simp [entry] at there
  | some e =>
    cases e with
    | directory => rw [grows.directory entry]; rfl
    | file content =>
      obtain ⟨content', there⟩ := grows.file entry
      rw [there]
      rfl

/-- A file is put where no directory is. -/
theorem grows_put (below : l ≠ []) (free : t.get? l ≠ some .directory) (content : Bytes) : t.Grows (t.put l (.file content)) where
  current := rfl
  directory {m} there := by
    have other : m ≠ l := fun same => free (same ▸ there)
    rw [get?_put t l m _ below, if_neg other, there]
  file {m old} there := by
    rw [get?_put t l m _ below]
    split
    · exact ⟨content, rfl⟩
    · exact ⟨old, there⟩

theorem walk_append (t : FileTree) (l : Location) (a b : List Text) : t.walk l (a ++ b) = t.walk l a >>= fun m => t.walk m b := by
  induction a generalizing l with
  | nil => rfl
  | cons part a ih =>
    simp only [List.cons_append, walk]
    split
    · rfl
    · split
      · exact ih l
      · split
        · exact ih _
        · split
          · rfl
          · split
            · rfl
            · exact ih _

theorem walk_blocked (file : t.get? l ≠ some .directory) (part : Text) (rest : List Text) :
    t.walk l (part :: rest) = .error .notDirectory := by
  rw [walk, if_pos file]

/-- On the way to something else, idle parts make no difference. -/
theorem walk_filter (t : FileTree) (l : Location) (parts : List Text) (part : Text) (rest : List Text) :
    t.walk l (parts ++ part :: rest) = t.walk l (parts.filter (!Path.isIdle ·) ++ part :: rest) := by
  induction parts generalizing l with
  | nil => rfl
  | cons first parts ih =>
    by_cases file : t.get? l ≠ some .directory
    · obtain ⟨part', rest', shape⟩ : ∃ part' rest', (first :: parts).filter (!Path.isIdle ·) ++ part :: rest = part' :: rest' :=
        List.exists_cons_of_ne_nil (by simp)
      rw [List.cons_append, walk_blocked file, shape, walk_blocked file]
    · by_cases idle : Path.isIdle first = true
      · rw [List.cons_append, walk, if_neg file, if_pos idle, ih l]
        simp [idle]
      · simp only [List.cons_append, walk, if_neg file, List.filter_cons, idle, Bool.not_false, if_true, Bool.false_eq_true, if_false]
        simp only [ih]

theorem walk_directory_iff : t.walk l parts = .ok d ∧ t.get? d = some .directory ↔ t.walk l (parts ++ [[]]) = .ok d := by
  have stays : ∀ m, t.walk m [[]] = .ok d ↔ m = d ∧ t.get? d = some .directory := by
    intro m
    by_cases directory : t.get? m = some .directory
    · simp only [walk, directory, Path.isIdle]
      constructor
      · rintro ⟨⟩
        exact ⟨rfl, directory⟩
      · rintro ⟨rfl, -⟩
        rfl
    · rw [walk_blocked directory]
      constructor
      · rintro ⟨⟩
      · rintro ⟨rfl, there⟩
        exact absurd there directory
  simp only [walk_append, Except.bind_eq_ok_iff, stays]
  constructor
  · rintro ⟨found, directory⟩
    exact ⟨d, found, rfl, directory⟩
  · rintro ⟨m, found, rfl, directory⟩
    exact ⟨found, directory⟩

/-- Where a part of a path leads. -/
def next (l : Location) (part : Text) : Location :=
  if Path.isIdle part then l else if part = ".." then l.dropLast else l ++ [part]

/-- What a step of a walk takes: a directory to start in, and an entry for the name. -/
theorem walk_cons_iff {part : Text} : t.walk l (part :: parts) = .ok m ↔ t.get? l = some .directory ∧
    (Path.isIdle part = true ∨ part = ".." ∨ Text.utf8Length part ≤ nameLimit ∧ (t.get? (l ++ [part])).isSome = true) ∧
    t.walk (next l part) parts = .ok m := by
  rw [walk, next]
  split
  next file => simp [file]
  next directory =>
    rw [not_not] at directory
    split
    next idle => simp [directory, idle]
    next named =>
      split
      next up => simp [directory, up]
      next other =>
        have down : part ≠ ['.', '.'] := other
        split
        next long => simp [directory, named, down, Nat.not_le.mpr long]
        next short =>
          split
          next none => simp [directory, named, down, Option.isNone_iff_eq_none.mp none]
          next some =>
            have there : (t.get? (l ++ [part])).isSome = true := by simpa [Option.isSome_iff_ne_none] using some
            simp [directory, named, down, Nat.not_lt.mp short, there]

theorem Grows.walk (grows : t.Grows t') (found : t.walk l parts = .ok m) : t'.walk l parts = .ok m := by
  induction parts generalizing l with
  | nil => exact found
  | cons part parts ih =>
    obtain ⟨directory, there, rest⟩ := walk_cons_iff.mp found
    refine walk_cons_iff.mpr ⟨grows.directory directory, ?_, ih rest⟩
    exact there.imp_right (Or.imp_right (And.imp_right grows.isSome))

theorem Grows.locate (grows : t.Grows t') (found : t.locate p = .ok l) : t'.locate p = .ok l := by
  rw [FileTree.locate] at found ⊢
  split at found
  next => cases found
  next =>
    rw [start, grows.current]
    exact grows.walk found

theorem isDirectory_iff {p : Path} : t.isDirectory p = true ↔ ∃ l, t.locate p = .ok l ∧ t.get? l = some .directory := by
  rw [isDirectory, entry?, beq_iff_eq]
  cases t.locate p with
  | error e => simp
  | ok l => simp

theorem Grows.isDirectory {p : Path} (grows : t.Grows t') (there : t.isDirectory p = true) : t'.isDirectory p = true := by
  obtain ⟨l, found, directory⟩ := isDirectory_iff.mp there
  exact isDirectory_iff.mpr ⟨l, grows.locate found, grows.directory directory⟩

theorem readBytes_eq_ok {p : Path} (read : t.readBytes p = .ok content) :
    ∃ l, t.locate p = .ok l ∧ t.get? l = some (.file content) := by
  obtain ⟨l, found, read⟩ := Except.bind_eq_ok_iff.mp read
  split at read
  next there =>
    obtain rfl := Except.ok.inj read
    exact ⟨l, found, there⟩
  next => cases read
  next => cases read

theorem readBytes_of_file {p : Path} (found : t.locate p = .ok l) (file : t.get? l = some (.file content)) :
    t.readBytes p = .ok content := by
  rw [readBytes, found]
  simp only [bind, Except.bind, file]

/-- After a walk that has to end in a directory, what follows starts in one. -/
theorem walk_bind_directory {β : Type} (t : FileTree) (s : Location) (parts : List Text) (f : Location → Except StorageError β) :
    (t.walk s parts >>= fun d => if t.get? d ≠ some .directory then .error .notDirectory else f d) =
      t.walk s (parts ++ [[]]) >>= f := by
  rw [walk_append]
  cases t.walk s parts with
  | error e => rfl
  | ok d =>
    show (if t.get? d ≠ some .directory then .error .notDirectory else f d) = t.walk d [[]] >>= f
    rw [walk]
    split
    · rfl
    · rfl

/-- A directory path leads to a location. -/
def Leads (t : FileTree) (base : Path) (d : Location) : Prop :=
  t.walk (t.start base) (Path.names base) = .ok d ∧ t.get? d = some .directory

/-- A name within a directory stands at a location, whether something is there or not. -/
structure Stands (t : FileTree) (base : Path) (n : Text) (l : Location) : Prop where
  readable : textError? (Path.join base n) = none
  short : Text.utf8Length n ≤ nameLimit
  inside : ∃ d, t.Leads base d ∧ l = d ++ [n]

theorem Leads.unique (here : t.Leads base l) (there : t.Leads base m) : l = m := Except.ok.inj (here.1.symm.trans there.1)

theorem Stands.unique (here : t.Stands base n l) (there : t.Stands base n m) : l = m := by
  obtain ⟨d, leads, rfl⟩ := here.inside
  obtain ⟨d', leads', rfl⟩ := there.inside
  rw [leads.unique leads']

theorem Stands.below (here : t.Stands base n l) : l ≠ [] := by
  obtain ⟨d, -, rfl⟩ := here.inside
  simp

theorem Leads.grows (leads : t.Leads base d) (grows : t.Grows t') : t'.Leads base d := by
  refine ⟨?_, grows.directory leads.2⟩
  rw [start, grows.current]
  exact grows.walk leads.1

theorem Stands.grows (stands : t.Stands base n l) (grows : t.Grows t') : t'.Stands base n l := by
  obtain ⟨d, leads, same⟩ := stands.inside
  exact ⟨stands.readable, stands.short, d, leads.grows grows, same⟩

theorem Leads.congr (names : Path.names above = Path.names base) (rooted : Path.isAbsolute above = Path.isAbsolute base) :
    t.Leads above d ↔ t.Leads base d := by
  rw [Leads, Leads, start, start, names, rooted]

theorem leads_iff (same : parts.filter (!Path.isIdle ·) = Path.names base) :
    t.walk (t.start base) parts = .ok d ∧ t.get? d = some .directory ↔ t.Leads base d := by
  rw [Leads, walk_directory_iff, walk_directory_iff, walk_filter, same]

/-- The way to a directory. -/
def way (t : FileTree) (base : Path) : Except StorageError Location := t.walk (t.start base) (Path.names base ++ [[]])

theorem way_eq_ok_iff : t.way base = .ok d ↔ t.Leads base d := walk_directory_iff.symm

theorem way_congr (names : Path.names above = Path.names base) (rooted : Path.isAbsolute above = Path.isAbsolute base) :
    t.way above = t.way base := by
  rw [way, way, start, start, names, rooted]

theorem start_part (opens : Path.Opens front) (proper : Path.Proper n) : t.start (front ++ n) = t.start front := by
  rw [start, start, Path.isAbsolute_opens opens proper.whole]

theorem target_part (opens : Path.Opens front) (proper : Path.Proper n) : t.target (front ++ n) =
    match textError? (front ++ n) with
    | some e => .error e
    | none => t.way front >>= fun d =>
      if Text.utf8Length n > nameLimit then .error .nameTooLong else .ok (.child d n false) := by
  obtain ⟨parts, whole, same⟩ := Path.split_opens opens proper.whole
  have bare : ((parts ++ [n]).reverse.dropWhile List.isEmpty).reverse = parts ++ [n] := by simp [proper.some]
  have dots : ¬ (n = "." ∨ n = "..") := fun dots => dots.elim proper.here proper.up
  rw [target, whole, start_part opens proper]
  cases textError? (front ++ n) with
  | some e => rfl
  | none =>
    simp only [bare, List.getLast?_append, List.getLast?_singleton, Option.some_or, List.dropLast_concat, Nat.lt_irrefl,
      decide_false, if_neg dots]
    rw [walk_bind_directory, walk_filter, same]
    rfl

theorem locate_part (opens : Path.Opens front) (proper : Path.Proper n) : t.locate (front ++ n) =
    match textError? (front ++ n) with
    | some e => .error e
    | none => t.way front >>= fun d =>
      if Text.utf8Length n > nameLimit then .error .nameTooLong
      else if (t.get? (d ++ [n])).isNone then .error .notFound
      else .ok (d ++ [n]) := by
  obtain ⟨parts, whole, same⟩ := Path.split_opens opens proper.whole
  have up : ¬ n = ".." := proper.up
  rw [locate, whole, start_part opens proper]
  cases textError? (front ++ n) with
  | some e => rfl
  | none =>
    rw [way, ← same, ← walk_filter, ← walk_bind_directory]
    refine (walk_append _ _ _ _).trans (congrArg _ (funext fun d => ?_))
    rw [walk, proper.notIdle, if_neg Bool.false_ne_true, if_neg up]
    rfl

theorem target_join (proper : Path.Proper n) : t.target (Path.join base n) =
    match textError? (Path.join base n) with
    | some e => .error e
    | none => t.way base >>= fun d =>
      if Text.utf8Length n > nameLimit then .error .nameTooLong else .ok (.child d n false) := by
  obtain ⟨front, opens, whole, names, rooted⟩ := Path.join_opens base
  rw [whole n proper, target_part opens proper, way_congr names rooted]

theorem locate_join (proper : Path.Proper n) : t.locate (Path.join base n) =
    match textError? (Path.join base n) with
    | some e => .error e
    | none => t.way base >>= fun d =>
      if Text.utf8Length n > nameLimit then .error .nameTooLong
      else if (t.get? (d ++ [n])).isNone then .error .notFound
      else .ok (d ++ [n]) := by
  obtain ⟨front, opens, whole, names, rooted⟩ := Path.join_opens base
  rw [whole n proper, locate_part opens proper, way_congr names rooted]

theorem locate_join_iff (proper : Path.Proper n) :
    t.locate (Path.join base n) = .ok l ↔ t.Stands base n l ∧ (t.get? l).isSome = true := by
  rw [locate_join proper]
  constructor
  · intro found
    split at found
    next => cases found
    next readable =>
      obtain ⟨d, way, found⟩ := Except.bind_eq_ok_iff.mp found
      split at found
      next => cases found
      next short =>
        split at found
        next => cases found
        next there =>
          obtain rfl := Except.ok.inj found
          exact ⟨⟨readable, Nat.not_lt.mp short, d, way_eq_ok_iff.mp way, rfl⟩, Option.isSome_iff_ne_none.mpr (by simpa using there)⟩
  · rintro ⟨⟨readable, short, d, leads, rfl⟩, there⟩
    rw [readable, way_eq_ok_iff.mpr leads]
    simp [bind, Except.bind, Nat.not_lt.mpr short, Option.isSome_iff_ne_none.mp there]

theorem target_join_iff (proper : Path.Proper n) {place : Target} : t.target (Path.join base n) = .ok place ↔
    ∃ d, t.Stands base n (d ++ [n]) ∧ place = .child d n false := by
  rw [target_join proper]
  constructor
  · intro found
    split at found
    next => cases found
    next readable =>
      obtain ⟨d, way, found⟩ := Except.bind_eq_ok_iff.mp found
      split at found
      next => cases found
      next short => exact ⟨d, ⟨readable, Nat.not_lt.mp short, d, way_eq_ok_iff.mp way, rfl⟩, (Except.ok.inj found).symm⟩
  · rintro ⟨d, ⟨readable, short, d', leads, place⟩, rfl⟩
    obtain rfl : d = d' := by simpa using place
    rw [readable, way_eq_ok_iff.mpr leads]
    exact if_neg (Nat.not_lt.mpr short)

theorem write_join_iff (proper : Path.Proper n) : t.write (Path.join base n) content = .ok t' ↔
    ∃ l, t.Stands base n l ∧ t.get? l ≠ some .directory ∧ t' = t.put l (.file content) := by
  rw [write]
  constructor
  · intro written
    obtain ⟨place, found, written⟩ := Except.bind_eq_ok_iff.mp written
    obtain ⟨d, stands, rfl⟩ := (target_join_iff proper).mp found
    simp only [Bool.false_eq_true, false_or] at written
    split at written
    next => cases written
    next free => exact ⟨_, stands, free, (Except.ok.inj written).symm⟩
  · rintro ⟨l, stands, free, rfl⟩
    obtain ⟨d, leads, rfl⟩ := stands.inside
    rw [(target_join_iff proper).mpr ⟨d, stands, rfl⟩]
    simp [bind, Except.bind, free]

end NotebookPages.FileTree
