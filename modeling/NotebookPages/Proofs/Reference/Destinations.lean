import NotebookPages.Proofs.Reference.Inside

/-! The files that the pages of a manifest are written to, told by what is left of a path once its single dots are resolved.
A manifest that is accepted leads below its directory and to every file once, but for a dot in front of a path: by itself it
names the directory, and a path behind it counts as another path. -/

namespace NotebookPages

namespace Path

variable {p q base directory : Path}

/-- What a path is once its single dots are resolved. -/
def resolved (p : Path) : List Component := (components p).filter (· != .here)

/-- The place is reached from the directory by names, and by one at least. -/
def Below (directory place : Path) : Prop := ∃ parts ≠ [], resolved place = resolved directory ++ parts.map Component.name

theorem components_of_relative (relative : isAbsolute p = false) : components p = (names p).map ofPart ∨
    components p = .here :: (names p).map ofPart := by
  rw [components, relative, if_neg Bool.false_ne_true]
  split
  next => exact Or.inr rfl
  next => exact Or.inl rfl

theorem resolved_eq (p : Path) : resolved p = (if isAbsolute p then [.root] else []) ++ (names p).map ofPart := by
  have kept : ((names p).map ofPart).filter (· != .here) = (names p).map ofPart := by
    refine List.filter_eq_self.mpr fun c inside => ?_
    obtain ⟨part, -, rfl⟩ := List.mem_map.mp inside
    exact bne_iff_ne.mpr (ofPart_ne part).2
  rw [resolved, components, List.filter_append]
  refine (congrArg _ kept).trans ?_
  congr 1
  by_cases rooted : isAbsolute p = true
  · rw [if_pos rooted, if_pos rooted]
    rfl
  · rw [if_neg rooted, if_neg rooted]
    split <;> rfl

theorem isAbsolute_join (base : Path) (relative : isAbsolute q = false) : isAbsolute (join base q) = isAbsolute base := by
  rw [join, relative, if_neg Bool.false_ne_true]
  cases base with
  | nil => exact relative
  | cons c base => split <;> rfl

theorem resolved_join (base : Path) (relative : isAbsolute q = false) :
    resolved (join base q) = resolved base ++ (names q).map ofPart := by
  rw [resolved_eq, resolved_eq, isAbsolute_join base relative, names_join base relative, List.map_append, List.append_assoc]

theorem Straight.map_ofPart (straight : Straight p) : (names p).map ofPart = (names p).map Component.name := by
  apply List.map_congr_left
  intro part inside
  refine if_neg ?_
  rintro rfl
  exact straight inside

/-- A relative path that is not empty begins with a name or a dot. -/
theorem components_ne_nil (some : p ≠ []) (relative : isAbsolute p = false) : components p ≠ [] := by
  cases p with
  | nil => exact absurd rfl some
  | cons c p =>
    have other : (c == '/') = false := by simpa [isAbsolute] using relative
    obtain ⟨part, parts, shape⟩ : ∃ part parts, Text.split (· == '/') (c :: p) = (c :: part) :: parts := by
      rw [Text.split, if_neg (by simp [other])]
      split
      next => exact ⟨[], [], rfl⟩
      next part parts _ => exact ⟨part, parts, rfl⟩
    rw [components, relative, shape, if_neg Bool.false_ne_true]
    by_cases dot : (c :: part) = ['.']
    · rw [dot]
      exact List.cons_ne_nil _ _
    · have named : isIdle (c :: part) = false := by simpa [isIdle] using dot
      simp [named]

/-- A path that does not climb leads below a directory unless it is nothing but dots. -/
theorem below_join_iff (directory : Path) (relative : isAbsolute p = false) (straight : Straight p) :
    Below directory (join directory p) ↔ names p ≠ [] := by
  rw [Below, resolved_join directory relative, straight.map_ofPart]
  constructor
  · rintro ⟨parts, some, same⟩ none
    rw [none] at same
    have parts : parts.map Component.name = [] := (List.append_cancel_left same).symm
    exact some (List.map_eq_nil_iff.mp parts)
  · intro some
    exact ⟨names p, some, rfl⟩

/-- Two relative paths that differ in writing lead to one place only if one is the other behind a dot. -/
theorem resolved_join_eq_iff (directory : Path) (relative : isAbsolute p = false) (relative' : isAbsolute q = false)
    (differ : same p q = false) : resolved (join directory p) = resolved (join directory q) ↔
      components p = .here :: components q ∨ components q = .here :: components p := by
  have differ : components p ≠ components q := beq_eq_false_iff_ne.mp differ
  rw [resolved_join directory relative, resolved_join directory relative', List.append_cancel_left_eq]
  constructor
  · intro alike
    rcases components_of_relative relative with here | here <;> rcases components_of_relative relative' with there | there
    · exact absurd (by rw [here, there, alike]) differ
    · exact Or.inr (by rw [here, there, alike])
    · exact Or.inl (by rw [here, there, alike])
    · exact absurd (by rw [here, there, alike]) differ
  · rintro (dotted | dotted)
    · rw [← filter_components, ← filter_components, dotted]
      rfl
    · rw [← filter_components, ← filter_components, dotted]
      rfl

end Path

namespace Reference

variable {m : Manifest} {p q directory : Path} {seen paths : List Path} {text : Text}

theorem distinct_of_checkPaths (checked : Manifest.checkPaths seen paths = .ok ()) :
    paths.Pairwise (fun p q => Path.same q p = false) ∧ ∀ p ∈ paths, ∀ s ∈ seen, Path.same p s = false := by
  induction paths generalizing seen with
  | nil => exact ⟨.nil, List.forall_mem_nil _⟩
  | cons p paths ih =>
    rw [Manifest.checkPaths] at checked
    split at checked
    next => cases checked
    next =>
      split at checked
      next => cases checked
      next fresh =>
        obtain ⟨distinct, others⟩ := ih checked
        have fresh : ∀ s ∈ seen, Path.same p s = false := by simpa using fresh
        constructor
        · exact List.pairwise_cons.mpr ⟨fun q inside => others q inside p List.mem_cons_self, distinct⟩
        · exact List.forall_mem_cons.mpr ⟨fresh, fun q inside s known => others q inside s (List.mem_cons_of_mem p known)⟩

theorem checkPaths_of_read (read : Manifest.read text = .ok m) : Manifest.checkPaths [] m.paths = .ok () := by
  rw [Manifest.read] at read
  split at read
  next => cases read
  next m' _ =>
    obtain ⟨done, checked, rfl⟩ := Except.map_eq_ok_iff.mp read
    exact checked

theorem ne_nil_of_staysInside (inside : Manifest.staysInside p = true) : p ≠ [] := by
  rintro rfl
  cases inside

/-- The pages of a manifest that is accepted are written below the directory, but for one whose path is a dot, and to different
files, but for two of which one path is the other behind a dot. -/
theorem pages_distinct_iff (read : Manifest.read text = .ok m) (directory : Path) :
    (∀ p ∈ m.paths, Path.Below directory (Path.join directory p) ↔ Path.components p ≠ [.here]) ∧
      (m.paths.Pairwise (fun p q => Path.resolved (Path.join directory p) ≠ Path.resolved (Path.join directory q)) ↔
        m.paths.Pairwise fun p q =>
          Path.components p ≠ .here :: Path.components q ∧ Path.components q ≠ .here :: Path.components p) := by
  have checked := checkPaths_of_read read
  have inside := staysInside_of_checkPaths checked
  constructor
  · intro p member
    obtain ⟨relative, straight⟩ := straight_of_staysInside (inside p member)
    rw [Path.below_join_iff directory relative straight]
    have some := Path.components_ne_nil (ne_nil_of_staysInside (inside p member)) relative
    rcases Path.components_of_relative relative with plain | dotted
    · rw [plain, Ne, List.map_eq_nil_iff] at some
      refine iff_of_true some ?_
      rw [plain]
      intro same
      obtain ⟨part, -, here⟩ := List.mem_map.mp (same ▸ List.mem_singleton_self _)
      exact (Path.ofPart_ne part).2 here
    · rw [dotted]
      simp
  · obtain ⟨distinct, -⟩ := distinct_of_checkPaths checked
    have alike : ∀ {p q}, p ∈ m.paths → q ∈ m.paths → Path.same q p = false →
        (Path.resolved (Path.join directory p) = Path.resolved (Path.join directory q) ↔
          Path.components p = .here :: Path.components q ∨ Path.components q = .here :: Path.components p) := by
      intro p q here there differ
      have relative := (straight_of_staysInside (inside p here)).1
      have relative' := (straight_of_staysInside (inside q there)).1
      rw [eq_comm, or_comm]
      exact Path.resolved_join_eq_iff directory relative' relative differ
    constructor
    · intro apart
      refine (distinct.and apart).imp_of_mem ?_
      rintro p q here there ⟨differ, apart⟩
      exact not_or.mp (mt (alike here there differ).mpr apart)
    · intro undotted
      refine (distinct.and undotted).imp_of_mem ?_
      rintro p q here there ⟨differ, undotted⟩
      exact mt (alike here there differ).mp (not_or.mpr undotted)

def dottedText : Text := List.flatten [
  "[[page]]\npath = \"a.mdx\"\ntitle = \"A\"\n",
  "[[page]]\npath = \"./a.mdx\"\ntitle = \"B\"\n",
  "[[page]]\npath = \".\"\ntitle = \"C\"\n"]

/-- Pages at `a.mdx`, at the same path behind a dot, and at a dot. -/
def dotted : Manifest :=
  ⟨"python", none, [⟨"a.mdx", "A", none, [], []⟩, ⟨"./a.mdx", "B", none, [], []⟩, ⟨".", "C", none, [], []⟩], [], []⟩

theorem read_dottedText : Manifest.read dottedText = .ok dotted := by decide +kernel

theorem pages_distinct_iff_dotted : Manifest.read dottedText = .ok dotted ∧
    (Path.Below "docs" (Path.join "docs" "./a.mdx") ↔ Path.components "./a.mdx" ≠ [.here]) ∧
    (dotted.paths.Pairwise (fun p q => Path.resolved (Path.join "docs" p) ≠ Path.resolved (Path.join "docs" q)) ↔
      dotted.paths.Pairwise fun p q =>
        Path.components p ≠ .here :: Path.components q ∧ Path.components q ≠ .here :: Path.components p) := by
  obtain ⟨below, distinct⟩ := pages_distinct_iff read_dottedText "docs"
  exact ⟨read_dottedText, below "./a.mdx" (by decide), distinct⟩

/-- Two pages go to one file, and a third one goes to the directory of all pages. -/
theorem pages_not_distinct : Manifest.read dottedText = .ok dotted ∧
    (("a.mdx" : Path) ∈ dotted.paths ∧ ("./a.mdx" : Path) ∈ dotted.paths ∧
      Path.resolved (Path.join "docs" "./a.mdx") = Path.resolved (Path.join "docs" "a.mdx")) ∧
    ("." : Path) ∈ dotted.paths ∧ ¬ Path.Below "docs" (Path.join "docs" ".") := by
  refine ⟨read_dottedText, by decide +kernel, by decide, ?_⟩
  rintro ⟨parts, some, same⟩
  have here : Path.resolved (Path.join "docs" ".") = Path.resolved "docs" := by decide +kernel
  rw [here, List.self_eq_append_right, List.map_eq_nil_iff] at same
  exact some same

end Reference
end NotebookPages
