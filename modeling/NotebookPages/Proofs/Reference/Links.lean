import NotebookPages.Proofs.Path.Walks
import NotebookPages.Proofs.Reference.Destinations

/-! The links of an index. A link is read from the directory of the page that it stands on. It leads to the page that it is for,
named without extension, but for two kinds of pages: a dot in front of the path of the page that holds the link counts as a
directory to climb from, and a name of dots is read as a step up. -/

namespace NotebookPages

namespace Path

variable {p q base : Path} {parts : List Text} {way : List Component}

/-- The path is written with a dot in front. -/
def Dotted (p : Path) : Prop := (components p).head? = some .here

instance (p : Path) : Decidable (Dotted p) := inferInstanceAs (Decidable (_ = _))

theorem components_of_dotted (relative : isAbsolute p = false) (dotted : Dotted p) :
    components p = .here :: (names p).map ofPart := by
  rcases components_of_relative relative with plain | here
  · rw [Dotted, plain, List.head?_map] at dotted
    obtain ⟨part, -, same⟩ := Option.map_eq_some_iff.mp dotted
    exact absurd same (ofPart_ne part).2
  · exact here

theorem components_of_not_dotted (relative : isAbsolute p = false) (undotted : ¬ Dotted p) :
    components p = (names p).map ofPart := by
  rcases components_of_relative relative with plain | here
  · exact plain
  · exact absurd (congrArg List.head? here) undotted

/-- What is followed is the resolved path. -/
theorem arrival_eq (p : Path) : arrival p = (walk [] (resolved p)).map List.reverse := by
  rw [arrival, resolved, walk_filter]

theorem arrival_of_straight (relative : isAbsolute p = false) (straight : Straight p) : arrival p = some (names p) := by
  have found := walk_names [] (names p) []
  rw [List.append_nil, List.append_nil] at found
  rw [arrival_eq, resolved_eq, relative, if_neg Bool.false_ne_true, List.nil_append, straight.map_ofPart, found]
  exact congrArg some (List.reverse_reverse _)

/-- A path resolves to names alone if none of its parts leads up. -/
theorem exists_arrival_iff (relative : isAbsolute p = false) :
    (∃ place, arrival p = some place ∧ resolved p = place.map .name) ↔ .up ∉ components p := by
  constructor
  · rintro ⟨place, -, same⟩ up
    have kept : .up ∈ resolved p := List.mem_filter.mpr ⟨up, rfl⟩
    rw [same] at kept
    obtain ⟨n, -, other⟩ := List.mem_map.mp kept
    cases other
  · intro level
    have straight : Straight p := fun up => level (List.mem_append_right _ (List.mem_map.mpr ⟨_, up, rfl⟩))
    refine ⟨names p, arrival_of_straight relative straight, ?_⟩
    rw [resolved_eq, relative, if_neg Bool.false_ne_true, List.nil_append, straight.map_ofPart]

theorem names_joinWith (whole : ∀ part ∈ parts, '/' ∉ part) :
    names (Text.joinWith "/" parts) = parts.filter (!isIdle ·) := by
  induction parts with
  | nil => rfl
  | cons part parts ih =>
    have here : names part = [part].filter (!isIdle ·) := by
      rw [names, split_of_whole (whole part List.mem_cons_self)]
    have others := ih fun other inside => whole other (List.mem_cons_of_mem _ inside)
    by_cases last : parts = []
    · subst last
      rw [Text.joinWith_singleton]
      exact here
    · rw [Text.joinWith_cons _ _ last]
      refine (names_append part (Text.joinWith "/" parts)).trans ?_
      rw [here, others, ← List.filter_append]
      rfl

/-- Parts that are written one after another lead the same way, but for dots. -/
theorem names_joinWith_text (relative : isAbsolute p = false) (k : Nat) :
    (names (Text.joinWith "/" (((components p).drop k).map Component.text))).map ofPart =
      ((components p).drop k).filter (· != .here) := by
  have spelled : ∀ c ∈ (components p).drop k, c = .here ∨ ∃ part ∈ names p, c = ofPart part := by
    intro c inside
    have inside := List.mem_of_mem_drop inside
    rcases components_of_relative relative with plain | dotted
    · rw [plain] at inside
      obtain ⟨part, member, same⟩ := List.mem_map.mp inside
      exact Or.inr ⟨part, member, same.symm⟩
    · rw [dotted] at inside
      rcases List.mem_cons.mp inside with here | inside
      · exact Or.inl here
      · obtain ⟨part, member, same⟩ := List.mem_map.mp inside
        exact Or.inr ⟨part, member, same.symm⟩
  generalize (components p).drop k = way at spelled
  have whole : ∀ part ∈ way.map Component.text, '/' ∉ part := by
    intro part inside
    obtain ⟨c, member, rfl⟩ := List.mem_map.mp inside
    rcases spelled c member with rfl | ⟨part, named, rfl⟩
    · decide
    · rw [text_ofPart]
      exact (solid_of_mem_names named).whole
  rw [names_joinWith whole]
  clear whole
  induction way with
  | nil => rfl
  | cons c way ih =>
    have others := ih fun d inside => spelled d (List.mem_cons_of_mem c inside)
    rcases spelled c List.mem_cons_self with rfl | ⟨part, named, rfl⟩
    · exact others
    · have lasting : (!isIdle part) = true := by simp [(solid_of_mem_names named).notIdle]
      have other : (ofPart part != .here) = true := bne_iff_ne.mpr (ofPart_ne part).2
      simp only [List.map_cons, text_ofPart, List.filter_cons, lasting, other, if_true, others]

theorem names_ups (k : Nat) (q : Path) :
    names ((List.replicate k ("../" : Text)).flatten ++ q) = List.replicate k ['.', '.'] ++ names q := by
  induction k with
  | zero => rfl
  | succ k ih =>
    have shape : (List.replicate (k + 1) ("../" : Text)).flatten ++ q =
        ['.', '.'] ++ '/' :: ((List.replicate k ("../" : Text)).flatten ++ q) := by
      rw [List.replicate_succ, List.flatten_cons, List.append_assoc]
      rfl
    rw [shape, names_append, ih, List.replicate_succ]
    rfl

/-- The directory that a page stands in. -/
def directory (source : Path) : Path := (parent? source).getD []

theorem directory_of_nameless (relative : isAbsolute p = false) (straight : Straight p) (nameless : fileName? p = none) :
    directory p = [] := by
  rw [fileName?_straight straight, List.getLast?_eq_none_iff] at nameless
  unfold directory parent?
  split
  · rfl
  · rfl
  next =>
    obtain ⟨same, rooted⟩ := trimIdle_keeps p.length p
    rcases trimIdle_cases (Nat.le_refl p.length) with none | root | here | ⟨front, n, whole, opens, solid⟩
    · rw [none]
      exact trimIdle_nil _
    · rw [root, relative] at rooted
      cases rooted
    · rw [here]
      exact trimIdle_nil _
    · rw [whole, names_opens opens solid.whole solid.notIdle, nameless] at same
      simp at same

/-- The directory of a page that stays inside stays inside, too. -/
theorem directory_of_inside (relative : isAbsolute p = false) (straight : Straight p) :
    isAbsolute (directory p) = false ∧ Straight (directory p) := by
  cases name : fileName? p with
  | some n =>
    obtain ⟨above, found, same, rooted⟩ := names_parent? straight name
    rw [directory, found, Option.getD_some]
    refine ⟨rooted.trans relative, fun up => straight ?_⟩
    rw [same]
    exact List.mem_append_left _ up
  | none =>
    rw [directory_of_nameless relative straight name]
    exact ⟨rfl, List.not_mem_nil⟩

end Path

namespace Reference

variable {m : Manifest} {source target : Path} {as bs : List Path.Component} {text : Text}

open NotebookPages.Path (Component components names resolved walk arrival isAbsolute ofPart Dotted Straight directory)

theorem sharedCount_le (as bs : List Component) : sharedCount as bs ≤ as.length := by
  fun_induction sharedCount as bs with
  | case1 as b bs ih => exact Nat.succ_le_succ ih
  | case2 => exact Nat.zero_le _
  | case3 => exact Nat.zero_le _

theorem take_sharedCount (as bs : List Component) : as.take (sharedCount as bs) = bs.take (sharedCount as bs) := by
  fun_induction sharedCount as bs with
  | case1 as b bs ih => rw [List.take_succ_cons, List.take_succ_cons, ih]
  | case2 => rfl
  | case3 => rfl

theorem head?_relativeLink (source target : Path) : (relativeLink source target).head? = some '.' := by
  unfold relativeLink
  simp only
  split
  next => rfl
  next up =>
    obtain ⟨n, climb⟩ := Nat.exists_eq_succ_of_ne_zero up
    rw [climb, List.replicate_succ]
    rfl

theorem isAbsolute_relativeLink (source target : Path) : isAbsolute (relativeLink source target) = false := by
  rw [isAbsolute, head?_relativeLink]
  rfl

theorem isAbsolute_withoutExtension (relative : isAbsolute target = false) : isAbsolute (Path.withoutExtension target) = false := by
  have front : ∀ n, isAbsolute ((Path.trimIdle target.length target).take n) = false := by
    intro n
    have kept := (Path.trimIdle_keeps target.length target).2.trans relative
    generalize Path.trimIdle target.length target = whole at kept
    cases n with
    | zero => rfl
    | succ n =>
      cases whole with
      | nil => rfl
      | cons c whole => exact kept
  unfold Path.withoutExtension
  split
  · exact relative
  · simp only
    split
    next name _ _ =>
      have kept := front ((Path.trimIdle target.length target).length - name.length + (Path.splitName name).1.length)
      generalize (Path.trimIdle target.length target).take _ = bare at kept
      cases bare with
      | nil => rfl
      | cons c bare => exact kept
    · exact front _

/-- The way of a link: up from the directory of its page, and down to the page that it is for. -/
theorem map_names_relativeLink (relative : isAbsolute target = false) :
    (names (relativeLink source target)).map ofPart =
      List.replicate ((components (directory source)).length -
        sharedCount (components (directory source)) (components (Path.withoutExtension target))) .up ++
      ((components (Path.withoutExtension target)).drop
        (sharedCount (components (directory source)) (components (Path.withoutExtension target)))).filter (· != .here) := by
  have down := Path.names_joinWith_text (isAbsolute_withoutExtension relative)
    (sharedCount (components (directory source)) (components (Path.withoutExtension target)))
  unfold relativeLink directory
  simp only
  split
  next level =>
    rw [level, List.replicate_zero, List.nil_append]
    exact down
  next =>
    rw [Path.names_ups, List.map_append, List.map_replicate]
    exact congrArg _ down

/-- A way down, up again but for its first names, and on. -/
theorem walk_back (above : List Text) {j : Nat} (fewer : j ≤ above.length) (way : List Component) :
    walk [] (above.map .name ++ (List.replicate (above.length - j) .up ++ way)) = walk [] ((above.take j).map .name ++ way) := by
  have left : above.reverse.length - (above.length - j) = j := by rw [List.length_reverse]; omega
  rw [Path.walk_names, Path.walk_names, List.append_nil, List.append_nil, Path.walk_ups, if_pos (by simp), List.drop_reverse]
  rw [List.length_reverse] at left
  rw [left]

theorem walk_beyond (above : List Text) {k : Nat} (beyond : above.length < k) (way : List Component) :
    walk [] (above.map .name ++ (List.replicate k .up ++ way)) = none := by
  rw [Path.walk_names, List.append_nil, Path.walk_ups, if_neg (by simpa using beyond)]

/-- A way back to where two ways part and along the other one is the other one. -/
theorem walk_parted (above : List Text) (way : List Component) :
    walk [] (above.map .name ++ (List.replicate (above.length - sharedCount (above.map .name) way) .up ++
      way.drop (sharedCount (above.map .name) way))) = walk [] way := by
  have fewer : sharedCount (above.map .name) way ≤ above.length := by
    simpa using sharedCount_le (above.map .name) way
  rw [walk_back above fewer, List.map_take, take_sharedCount, List.take_append_drop]

theorem sharedCount_of_head_ne (apart : as.head? ≠ bs.head?) : sharedCount as bs = 0 := by
  unfold sharedCount
  split
  next a as b bs =>
    refine if_neg ?_
    rintro rfl
    exact apart rfl
  next => rfl

theorem filter_map_ofPart (parts : List Text) : (parts.map ofPart).filter (· != .here) = parts.map ofPart := by
  refine List.filter_eq_self.mpr fun c inside => ?_
  obtain ⟨part, -, rfl⟩ := List.mem_map.mp inside
  exact bne_iff_ne.mpr (Path.ofPart_ne part).2

/-- The way of a link from where all ways begin. -/
theorem arrival_link (relative : isAbsolute source = false) (straight : Straight source) (target : Path) :
    arrival (Path.join (directory source) (relativeLink source target)) =
      (walk [] ((names (directory source)).map .name ++ (names (relativeLink source target)).map ofPart)).map List.reverse := by
  obtain ⟨inside, further⟩ := Path.directory_of_inside relative straight
  rw [Path.arrival_eq, Path.resolved_join _ (isAbsolute_relativeLink source target), Path.resolved_eq, inside,
    if_neg Bool.false_ne_true, List.nil_append, Path.Straight.map_ofPart further]

/-- A link leads where the page that it is for lies, unless only the directory of its own page is written with a dot in front. -/
theorem arrival_link_of_alike (relative : isAbsolute source = false) (straight : Straight source) (relative' : isAbsolute target = false)
    (alike : Dotted (directory source) → Dotted (Path.withoutExtension target)) :
    arrival (Path.join (directory source) (relativeLink source target)) = arrival (Path.withoutExtension target) := by
  obtain ⟨inside, further⟩ := Path.directory_of_inside relative straight
  have bare := isAbsolute_withoutExtension relative'
  rw [arrival_link relative straight, map_names_relativeLink relative', Path.arrival_eq (Path.withoutExtension target),
    Path.resolved_eq, bare, if_neg Bool.false_ne_true, List.nil_append]
  apply congrArg
  have parted := walk_parted (names (directory source)) ((names (Path.withoutExtension target)).map ofPart)
  by_cases dotted : Dotted (directory source)
  · have above := Path.components_of_dotted inside dotted
    rw [Path.Straight.map_ofPart further] at above
    rw [above, Path.components_of_dotted bare (alike dotted)]
    simp only [sharedCount, if_true, List.length_cons, List.length_map, Nat.add_sub_add_right, List.drop_succ_cons]
    rw [← List.map_drop, filter_map_ofPart, List.map_drop]
    exact parted
  · have above := Path.components_of_not_dotted inside dotted
    rw [Path.Straight.map_ofPart further] at above
    rw [above, List.length_map]
    by_cases dotted' : Dotted (Path.withoutExtension target)
    · rw [Path.components_of_dotted bare dotted', sharedCount_of_head_ne, List.drop_zero, Nat.sub_zero]
      · have back := walk_back (names (directory source)) (Nat.zero_le _) ((names (Path.withoutExtension target)).map ofPart)
        rw [List.filter_cons_of_neg (by simp), filter_map_ofPart]
        exact back
      · rw [← above]
        exact dotted
    · rw [Path.components_of_not_dotted bare dotted', ← List.map_drop, filter_map_ofPart, List.map_drop]
      exact parted

/-- The dot in front of a directory is a directory that cannot be left. -/
theorem arrival_link_eq_none (relative : isAbsolute source = false) (straight : Straight source) (relative' : isAbsolute target = false)
    (dotted : Dotted (directory source)) (undotted : ¬ Dotted (Path.withoutExtension target)) :
    arrival (Path.join (directory source) (relativeLink source target)) = none := by
  obtain ⟨inside, further⟩ := Path.directory_of_inside relative straight
  have count : components (directory source) = .here :: (names (directory source)).map .name :=
    (Path.components_of_dotted inside dotted).trans (congrArg _ (Path.Straight.map_ofPart further))
  have apart : (components (directory source)).head? ≠ (components (Path.withoutExtension target)).head? := by
    rw [dotted]
    exact fun same => undotted same.symm
  rw [arrival_link relative straight, map_names_relativeLink relative', sharedCount_of_head_ne apart, count]
  rw [walk_beyond _ (by simp)]
  rfl

/-- The directory of a page is written with a dot in front if the page is, which is not the dot itself. -/
theorem dotted_directory_iff (relative : isAbsolute source = false) (straight : Straight source) :
    Dotted (directory source) ↔ Dotted source ∧ components source ≠ [.here] := by
  cases name : Path.fileName? source with
  | some n =>
    obtain ⟨above, found, whole⟩ := Path.components_parent? name
    have same : directory source = above := by rw [directory, found, Option.getD_some]
    have named : components source ≠ [.here] := by
      rw [whole]
      intro alone
      have last := congrArg List.getLast? alone
      rw [List.getLast?_concat] at last
      cases last
    rw [same, and_iff_left named, Dotted, Dotted, whole, List.head?_append]
    cases (components above).head? with
    | none => simp
    | some first => rfl
  | none =>
    rw [Path.directory_of_nameless relative straight name]
    rw [Path.fileName?_straight straight, List.getLast?_eq_none_iff] at name
    refine iff_of_false (by decide) ?_
    rintro ⟨dotted, other⟩
    apply other
    rw [Path.components_of_dotted relative dotted, name]
    rfl

/-- On the pages of a manifest that is accepted a link leads to the page that it is for, named without extension, and never above
the directory of all pages, exactly if that name is not two dots and no dot stands in front of the path of the page that holds the
link unless one stands in front of the other path, too. Where that dot stands alone the way leads above the directory. -/
theorem link_resolves_iff (read : Manifest.read text = .ok m) (member : source ∈ m.paths) (member' : target ∈ m.paths) :
    ((∃ place, arrival (Path.join (directory source) (relativeLink source target)) = some place ∧
        resolved (Path.withoutExtension target) = place.map .name) ↔
      .up ∉ components (Path.withoutExtension target) ∧
        (Dotted source → components source ≠ [.here] → Dotted (Path.withoutExtension target))) ∧
    (Dotted source → components source ≠ [.here] → ¬ Dotted (Path.withoutExtension target) →
      arrival (Path.join (directory source) (relativeLink source target)) = none) := by
  have inside := staysInside_of_checkPaths (checkPaths_of_read read)
  obtain ⟨relative, straight⟩ := straight_of_staysInside (inside source member)
  obtain ⟨relative', -⟩ := straight_of_staysInside (inside target member')
  have lost := arrival_link_eq_none relative straight relative'
  rw [← and_imp, ← and_imp, ← dotted_directory_iff relative straight]
  refine ⟨?_, lost⟩
  rw [← Path.exists_arrival_iff (isAbsolute_withoutExtension relative')]
  by_cases alike : Dotted (directory source) → Dotted (Path.withoutExtension target)
  · rw [arrival_link_of_alike relative straight relative' alike]
    exact (and_iff_left alike).symm
  · obtain ⟨dotted, undotted⟩ := Classical.not_imp.mp alike
    rw [lost dotted undotted]
    simp [alike]

def linkedText : Text := List.flatten [
  "[[module]]\npath = \"x/a.b.mdx\"\nname = \"a\"\naccess_path = \"a\"\ngroup = \"g\"\n",
  "[[index]]\npath = \"y/index.mdx\"\ntitle = \"I\"\ngroup = \"g\"\n",
  "[[index]]\npath = \"./x/index.mdx\"\ntitle = \"I\"\ngroup = \"g\"\n"]

/-- A module with an index in a directory beside it and one in its own directory, written with a dot in front. -/
def linked : Manifest where
  language := "python"
  importLine := none
  pages := []
  modules := [⟨"x/a.b.mdx", "a", none, [], "a", some "g", none⟩]
  indexes := [⟨"y/index.mdx", "I", [], "g", none⟩, ⟨"./x/index.mdx", "I", [], "g", none⟩]

theorem read_linkedText : Manifest.read linkedText = .ok linked := by decide +kernel

theorem link_resolves_iff_beside : Manifest.read linkedText = .ok linked ∧ ("y/index.mdx" : Path) ∈ linked.paths ∧
    ("x/a.b.mdx" : Path) ∈ linked.paths ∧ relativeLink "y/index.mdx" "x/a.b.mdx" = "../x/a.b" ∧
    ((∃ place, arrival (Path.join (directory "y/index.mdx") (relativeLink "y/index.mdx" "x/a.b.mdx")) = some place ∧
        resolved (Path.withoutExtension "x/a.b.mdx") = place.map .name) ↔
      .up ∉ components (Path.withoutExtension "x/a.b.mdx") ∧
        (Dotted "y/index.mdx" → components "y/index.mdx" ≠ [.here] → Dotted (Path.withoutExtension "x/a.b.mdx"))) := by
  have member : ("y/index.mdx" : Path) ∈ linked.paths := by decide +kernel
  have member' : ("x/a.b.mdx" : Path) ∈ linked.paths := by decide +kernel
  obtain ⟨resolves, -⟩ := link_resolves_iff read_linkedText member member'
  exact ⟨read_linkedText, member, member', by decide +kernel, resolves⟩

/-- A link to a page in the same directory leads above the directory of all pages, as a dot stands in front of one path alone. -/
theorem link_not_resolved : Manifest.read linkedText = .ok linked ∧ ("./x/index.mdx" : Path) ∈ linked.paths ∧
    ("x/a.b.mdx" : Path) ∈ linked.paths ∧ relativeLink "./x/index.mdx" "x/a.b.mdx" = "../../x/a.b" ∧
    ¬ ∃ place, arrival (Path.join (directory "./x/index.mdx") (relativeLink "./x/index.mdx" "x/a.b.mdx")) = some place ∧
      resolved (Path.withoutExtension "x/a.b.mdx") = place.map .name := by
  refine ⟨read_linkedText, by decide +kernel, by decide +kernel, by decide +kernel, ?_⟩
  rintro ⟨place, found, -⟩
  have lost : arrival (Path.join (directory "./x/index.mdx") (relativeLink "./x/index.mdx" "x/a.b.mdx")) = none := by decide +kernel
  rw [lost] at found
  cases found

end Reference
end NotebookPages
