import NotebookPages.Proofs.Command.Failures
import NotebookPages.Proofs.Command.Writers
import NotebookPages.Proofs.Storage.Bystanders

/-! The order of the items of a batch. An item that is treated after another one fares as it does alone, for neither writes what the
other reads or writes: a page that one item would read is a page that both would write, and then one of them is a duplicate. -/

namespace NotebookPages.Command.Batch

variable {b : Batch} {t u v w x : FileTree} {i j : Item} {r r' : Result} {items : List Item} {page page' : Page}

/-- An item that is treated after another one, of which it has neither the page nor reads it. -/
structure Clear (b : Batch) (t : FileTree) (i j : Item) : Prop where
  first : i.destination = Page.outputPath b.options.dialect b.outputDir i.source
  second : j.destination = Page.outputPath b.options.dialect b.outputDir j.source
  unaliased : t.Unaliased [i.destination, j.source, j.destination]
  pages : t.place j.destination ≠ t.place i.destination
  source : t.place j.source ≠ t.place i.destination

/-- The page of a page is that page. -/
theorem place_of_page (first : i.destination = Page.outputPath b.options.dialect b.outputDir i.source)
    (second : j.destination = Page.outputPath b.options.dialect b.outputDir j.source)
    (unaliased : t.Unaliased [i.destination, j.source, j.destination]) (same : t.place j.source = t.place i.destination) :
    t.place j.destination = t.place i.destination := by
  obtain ⟨stem, settled, shape⟩ := Page.outputPath_stem b.options.dialect b.outputDir i.source
  have named := Page.named b.options.dialect settled.whole
  have straight := unaliased.straight j.source (by simp)
  have alike := unaliased.distinct j.source (by simp) i.destination (by simp) same
  have name : Path.fileName? j.source = some (stem ++ "." ++ b.options.dialect.extension) := by
    rw [Path.fileName?_straight straight, (Path.names_of_same alike).1, ← Path.fileName?_straight (unaliased.straight _ (by simp)),
      first, shape, Path.fileName?_join _ named.toProper]
  have shape' := Page.outputPath_of_page settled name b.options.dialect b.outputDir
  cases asked : b.outputDir with
  | some p => rw [first, second, shape, shape', asked, Option.some_or, Option.some_or]
  | none =>
    obtain ⟨above, parent, names, rooted⟩ := Path.names_parent? straight name
    rw [second, shape', asked, Option.none_or, parent, Option.getD_some, FileTree.place_join t above named.toProper, ← same,
      FileTree.place, FileTree.place, FileTree.start, FileTree.start, names, rooted, List.append_assoc]

theorem Clear.apart (clear : Clear b t i j) (made : b.attempt t i = .ok page) (made' : b.attempt t j = .ok page') :
    ∃ n m, i.destination = Path.join (b.directory i.source) n ∧ j.destination = Path.join (b.directory j.source) m ∧
      t.Apart (b.directory i.source) n (b.directory j.source) m := by
  obtain ⟨n, named, shape⟩ := destination_shape clear.first
  obtain ⟨m, named', shape'⟩ := destination_shape clear.second
  refine ⟨n, m, shape, shape', named.toProper, named'.toProper, ?_, ?_, ?_, ?_, ?_, ?_⟩
  · exact Path.Straight.of_join (shape ▸ clear.unaliased.straight _ (by simp)) named.relative
  · exact Path.Straight.of_join (shape' ▸ clear.unaliased.straight _ (by simp)) named'.relative
  · have pages := clear.pages
    rwa [shape, shape'] at pages
  · rintro rfl
    exact named'.page (List.suffix_append n _)
  · rintro rfl
    exact named.page (List.suffix_append m _)
  · cases asked : b.outputDir with
    | some p =>
      left
      rw [directory, directory, asked, Option.some_or, Option.some_or]
    | none => exact Or.inr ⟨leads_of_attempt made asked, leads_of_attempt made' asked⟩

/-- Results of an item that differ at most in why a source that is not there could not be read. -/
def Alike (t : FileTree) (i : Item) (r r' : Result) : Prop :=
  r = r' ∨ t.contains i.source = false ∧ (∃ e, r = .failed (SourceError.unreadable e).failure) ∧
    ∃ e, r' = .failed (SourceError.unreadable e).failure

theorem Alike.refl (t : FileTree) (i : Item) (r : Result) : Alike t i r r := Or.inl rfl

theorem Alike.symm (alike : Alike t i r r') : Alike t i r' r := by
  rcases alike with same | ⟨absent, first, second⟩
  · exact Or.inl same.symm
  · exact Or.inr ⟨absent, second, first⟩

theorem Alike.trans {r'' : Result} (alike : Alike t i r r') (alike' : Alike t i r' r'') : Alike t i r r'' := by
  rcases alike with rfl | ⟨absent, first, second⟩
  · exact alike'
  · rcases alike' with rfl | ⟨-, -, third⟩
    · exact Or.inr ⟨absent, first, second⟩
    · exact Or.inr ⟨absent, first, third⟩

/-- What is there later need not have been there before. -/
theorem Alike.earlier (alike : Alike u i r r') (grows : t.Grows u) : Alike t i r r' := by
  refine alike.imp_right (And.imp_left fun absent => ?_)
  rw [← Bool.not_eq_true] at absent ⊢
  intro there
  obtain ⟨l, found, some⟩ := FileTree.contains_iff.mp there
  exact absent (FileTree.contains_iff.mpr ⟨l, grows.locate found, grows.isSome some⟩)

theorem grows_convert (placed : Placed i) : t.Grows (b.convert t i).1 := by
  have treated : (if false = true then (t, .skipped .earlierFailure) else b.convert t i) = ((b.convert t i).1, (b.convert t i).2) := rfl
  rcases treated_cases placed treated with ⟨-, -, n, content, d, -, published⟩ | ⟨-, furnished⟩
  · exact published.grows
  · exact furnished.grows

namespace Clear

theorem grows (clear : Clear b t i j) : t.Grows (b.convert t i).1 := by
  obtain ⟨n, named, shape⟩ := destination_shape clear.first
  exact grows_convert ⟨_, n, shape, named⟩

/-- Beside the page of an item and its backup, only directories come up. -/
theorem elsewhere {l : Location} (clear : Clear b t i j) (made : b.attempt t i = .ok page) (away : l ≠ t.place i.destination)
    (away' : l ≠ FileTree.backupOf (t.place i.destination)) : (b.convert t i).1.get? l = (t.prepare i.destination).1.get? l := by
  obtain ⟨n, named, shape⟩ := destination_shape clear.first
  have straight := clear.unaliased.straight i.destination (by simp)
  rw [convert_of_ok made]
  rw [shape] at away away' straight ⊢
  exact FileTree.publish_elsewhere named.toProper (straight.of_join named.relative) away away' _ _

/-- Neither the page of the other item nor a directory goes where the page goes. -/
theorem page_entry (clear : Clear b t i j) (made : b.attempt t i = .ok page) :
    (b.convert t i).1.get? (t.place j.destination) = t.get? (t.place j.destination) := by
  obtain ⟨n, named, shape⟩ := destination_shape clear.first
  obtain ⟨m, named', shape'⟩ := destination_shape clear.second
  have straight := clear.unaliased.straight i.destination (by simp)
  have place : t.place i.destination = t.place (b.directory i.source) ++ [n] := by
    rw [shape]
    exact FileTree.place_join t _ named.toProper
  have place' : t.place j.destination = t.place (b.directory j.source) ++ [m] := by
    rw [shape']
    exact FileTree.place_join t _ named'.toProper
  rw [clear.elsewhere made clear.pages]
  · cases asked : b.outputDir with
    | none =>
      obtain ⟨d, leads⟩ := leads_of_attempt made asked
      obtain ⟨r, unmade⟩ := FileTree.prepare_of_leads (b.directory i.source) named.toProper
      rw [shape, unmade leads]
    | some p =>
      have shared : b.directory j.source = b.directory i.source := by
        rw [directory, directory, asked, Option.some_or, Option.some_or]
      rw [shape] at straight ⊢
      refine FileTree.prepare_elsewhere (straight.of_join named.relative) named.toProper fun above => ?_
      rw [place', shared] at above
      exact absurd above.length_le (by simp)
  · rw [place, place', FileTree.backupOf_append]
    exact page_ne_backup named'

/-- The source is left as it is, but a directory may come up where there is none. -/
theorem source_entry {format : SourceFormat} (clear : Clear b t i j) (made : b.attempt t i = .ok page)
    (known : SourceFormat.ofPath? j.source = some format) :
    (b.convert t i).1.get? (t.place j.source) = t.get? (t.place j.source) ∨
      t.get? (t.place j.source) = none ∧ (b.convert t i).1.get? (t.place j.source) = some .directory := by
  obtain ⟨n, named, shape⟩ := destination_shape clear.first
  rw [clear.elsewhere made clear.source]
  · exact (FileTree.furnished_prepare t _).entry _
  · rw [shape, FileTree.place_join t _ named.toProper]
    exact SourceFormat.place_ne_backupOf known (clear.unaliased.straight j.source (by simp)) _ named.some

theorem refusal (clear : Clear b t i j) (nested : t.Nested) (made : b.attempt t i = .ok page) :
    (b.convert t i).1.refusal? b.force j.source j.destination = t.refusal? b.force j.source j.destination := by
  have straight := clear.unaliased.straight j.source (by simp)
  have straight' := clear.unaliased.straight j.destination (by simp)
  have distinct := fun {u : FileTree} (current : u.current = t.current) =>
    (clear.unaliased.congr current).distinct j.source (by simp) j.destination (by simp)
  rw [FileTree.refusal?, FileTree.refusal?, FileTree.sameFile_straight straight straight' (distinct clear.grows.current),
    FileTree.sameFile_straight straight straight' (distinct rfl),
    FileTree.contains_same nested clear.grows straight' (clear.page_entry made)]

/-- An item finds the same after another one as before it, unless its source is not there. -/
theorem attempt (clear : Clear b t i j) (nested : t.Nested) (made : b.attempt t i = .ok page) :
    b.attempt (b.convert t i).1 j = b.attempt t j ∨
      ∃ r r', b.attempt t j = .error r ∧ b.attempt (b.convert t i).1 j = .error r' ∧ Alike t j r r' := by
  unfold Batch.attempt
  rw [clear.refusal nested made]
  split
  next => exact Or.inl rfl
  next =>
    split
    next => exact Or.inl rfl
    next =>
      cases known : SourceFormat.ofPath? j.source with
      | none => exact Or.inl (by rw [Page.ofFile_unsupported known, Page.ofFile_unsupported known])
      | some format =>
        rcases FileTree.readBytes_later nested clear.grows (clear.unaliased.straight j.source (by simp))
          (clear.source_entry made known) with same | ⟨absent, ⟨e, first⟩, e', second⟩
        · exact Or.inl (by rw [Page.ofFile_congr same])
        · rw [Page.ofFile_unreadable known first, Page.ofFile_unreadable known second]
          exact Or.inr ⟨_, _, rfl, rfl, Or.inr ⟨absent, ⟨e, rfl⟩, e', rfl⟩⟩

end Clear

/-- Items that are both to be treated do not stand in each other's way. -/
def Free (b : Batch) (t : FileTree) (i j : Item) : Prop :=
  i.duplicate = false → j.duplicate = false → Clear b t i j ∧ Clear b t j i

theorem Free.symm (free : Free b t i j) : Free b t j i := fun fresh fresh' => (free fresh' fresh).symm

theorem duplicate_convert (duplicate : j.duplicate = true) : b.convert t j = (t, .skipped .duplicate) := by
  rw [convert, if_pos duplicate]

/-- An item that is treated after another one fares as it does alone. -/
theorem convert_convert (placed : Placed j) (nested : t.Nested) (free : Free b t i j) :
    Alike t j (b.convert t j).2 (b.convert (b.convert t i).1 j).2 ∧
      t.Merges (b.convert t i).1 (b.convert t j).1 (b.convert (b.convert t i).1 j).1 := by
  -- Where the second item leaves its files alone, what the first one left remains.
  have left : ∀ {r r'}, Alike t j r r' → b.convert t j = (t, r) → b.convert (b.convert t i).1 j = ((b.convert t i).1, r') →
      Alike t j (b.convert t j).2 (b.convert (b.convert t i).1 j).2 ∧
        t.Merges (b.convert t i).1 (b.convert t j).1 (b.convert (b.convert t i).1 j).1 := by
    intro r r' alike before after
    rw [before, after]
    exact ⟨alike, fun _ => rfl, fun changed => absurd rfl changed, fun _ changed => absurd rfl changed⟩
  cases made : b.attempt t i with
  | error r =>
    rw [convert_of_error made]
    exact ⟨.refl t j _, FileTree.merges_of_made (.refl t) (grows_convert placed)⟩
  | ok page =>
    cases fresh : j.duplicate with
    | true => exact left (.refl t j _) (duplicate_convert fresh) (duplicate_convert fresh)
    | false =>
      obtain ⟨clear, -⟩ := free (attempt_eq_ok made).1 fresh
      rcases clear.attempt nested made with same | ⟨r, r', before, after, alike⟩
      · cases made' : b.attempt t j with
        | error r => exact left (.refl t j _) (convert_of_error made') (convert_of_error (same.trans made'))
        | ok page' =>
          obtain ⟨n, m, shape, shape', apart⟩ := clear.apart made made'
          obtain ⟨same', merges⟩ := apart.publish nested b.backup page.content page'.content
          rw [convert_of_ok (same.trans made'), convert_of_ok made', convert_of_ok made, shape, shape', same']
          exact ⟨.refl t j _, merges⟩
      · exact left alike (convert_of_error before) (convert_of_error after)

/-- Each item has changed what it changes alone, and what none of them changes is as it was. -/
structure Superposed (b : Batch) (t : FileTree) (items : List Item) (u : FileTree) : Prop where
  changed : ∀ i ∈ items, ∀ {l}, (b.convert t i).1.get? l ≠ t.get? l → u.get? l = (b.convert t i).1.get? l
  kept : ∀ {l}, (∀ i ∈ items, (b.convert t i).1.get? l = t.get? l) → u.get? l = t.get? l

/-- There is only one such tree, whatever the order of the items. -/
theorem Superposed.unique {items' : List Item} (superposed : Superposed b t items u) (superposed' : Superposed b t items' v)
    (same : ∀ i, i ∈ items ↔ i ∈ items') (l : Location) : u.get? l = v.get? l := by
  by_cases change : ∃ i ∈ items, (b.convert t i).1.get? l ≠ t.get? l
  · obtain ⟨i, member, change⟩ := change
    rw [superposed.changed i member change, superposed'.changed i ((same i).mp member) change]
  · have none : ∀ i ∈ items, (b.convert t i).1.get? l = t.get? l := by simpa using change
    rw [superposed.kept none, superposed'.kept fun i member => none i ((same i).mpr member)]

/-- Items that each fare after the first as they do alone are superposed on what the first has left. -/
theorem Superposed.cons (merges : ∀ j ∈ items, t.Merges (b.convert t i).1 (b.convert t j).1 (b.convert (b.convert t i).1 j).1)
    (superposed : Superposed b (b.convert t i).1 items u) : Superposed b t (i :: items) u := by
  have first : ∀ {l}, (b.convert t i).1.get? l ≠ t.get? l → u.get? l = (b.convert t i).1.get? l := by
    intro l change
    by_cases again : ∃ j ∈ items, (b.convert (b.convert t i).1 j).1.get? l ≠ (b.convert t i).1.get? l
    · -- A later item that changes the place again does so alone as well, and to the same.
      obtain ⟨j, member, again⟩ := again
      have alone : (b.convert t j).1.get? l ≠ t.get? l := fun same => again ((merges j member).same same)
      exact absurd (((merges j member).other alone).trans ((merges j member).agree change alone).symm) again
    · exact superposed.kept (by simpa using again)
  constructor
  · intro j member l change
    rcases List.mem_cons.mp member with rfl | member
    · exact first change
    · have taken := (merges j member).other change
      by_cases again : (b.convert (b.convert t i).1 j).1.get? l = (b.convert t i).1.get? l
      · rw [← taken, again]
        exact first (again ▸ taken ▸ change)
      · rw [superposed.changed j member again, taken]
  · intro l kept
    obtain ⟨same, others⟩ := List.forall_mem_cons.mp kept
    rw [superposed.kept fun j member => (merges j member).same (others j member), same]

theorem Clear.congr (clear : Clear b t i j) (current : u.current = t.current) : Clear b u i j where
  first := clear.first
  second := clear.second
  unaliased := clear.unaliased.congr current
  pages := by
    rw [FileTree.place_of_current current, FileTree.place_of_current current]
    exact clear.pages
  source := by
    rw [FileTree.place_of_current current, FileTree.place_of_current current]
    exact clear.source

theorem Free.congr (free : Free b t i j) (current : u.current = t.current) : Free b u i j := fun fresh fresh' =>
  (free fresh fresh').imp (·.congr current) (·.congr current)

/-- Items that do not stand in each other's way fare together as each does alone. -/
theorem run_of_free (patient : b.failFast = false) (placed : ∀ i ∈ items, Placed i) (nested : t.Nested)
    (free : items.Pairwise (Free b t)) : Superposed b t items (b.run t false items).1 ∧
      ∀ x ∈ (b.run t false items).2, Alike t x.1 (b.convert t x.1).2 x.2 := by
  induction items generalizing t with
  | nil => exact ⟨⟨by simp, fun _ => rfl⟩, by simp [run]⟩
  | cons i items ih =>
    obtain ⟨first, others⟩ := List.forall_mem_cons.mp placed
    obtain ⟨apart, free⟩ := List.pairwise_cons.mp free
    have grows := grows_convert (b := b) (t := t) first
    obtain ⟨superposed, results⟩ := ih others (nested_convert nested rfl) (free.imp (·.congr grows.current))
    have step := fun j member => convert_convert (others j member) nested (apart j member)
    rw [run_cons patient]
    refine ⟨superposed.cons fun j member => (step j member).2, List.forall_mem_cons.mpr ⟨.refl t i _, fun x member => ?_⟩⟩
    have planned : x.1 ∈ items := by
      rw [← run_items b (b.convert t i).1 false items]
      exact List.mem_map_of_mem member
    exact (step x.1 planned).1.trans ((results x member).earlier grows)

/-- The paths of the sources and of their pages. -/
def paths (b : Batch) (sources : List Path) : List Path := sources ++ (b.plan sources).map Item.destination

theorem source_planFrom {claimed sources : List Path} (member : i ∈ b.planFrom claimed sources) : i.source ∈ sources := by
  induction sources generalizing claimed with
  | nil => cases member
  | cons source sources ih =>
    rcases List.mem_cons.mp member with rfl | member
    · exact List.mem_cons_self
    · exact List.mem_cons_of_mem _ (ih member)

theorem destination_mem_paths {sources : List Path} (planned : i ∈ b.plan sources) : i.destination ∈ b.paths sources :=
  List.mem_append_right _ (List.mem_map_of_mem planned)

theorem clear_of_pages {sources : List Path} (unaliased : t.Unaliased (b.paths sources)) (first : i ∈ b.plan sources)
    (second : j ∈ b.plan sources) (pages : t.place j.destination ≠ t.place i.destination) : Clear b t i j := by
  have fewer : t.Unaliased [i.destination, j.source, j.destination] := by
    refine unaliased.mono fun p inside => ?_
    simp only [List.mem_cons, List.not_mem_nil, or_false] at inside
    rcases inside with rfl | rfl | rfl
    · exact destination_mem_paths first
    · exact List.mem_append_left _ (source_planFrom second)
    · exact destination_mem_paths second
  have planned := destination_planFrom first
  have planned' := destination_planFrom second
  exact ⟨planned, planned', fewer, pages, fun same => pages (place_of_page planned planned' fewer same)⟩

/-- No two items of a plan stand in each other's way where different paths name different files. -/
theorem pairwise_free {sources : List Path} (unaliased : t.Unaliased (b.paths sources)) : (b.plan sources).Pairwise (Free b t) := by
  refine (pairwise_planFrom b [] sources).imp_of_mem fun {i j} first second later _ fresh => ?_
  have pages : t.place i.destination ≠ t.place j.destination := by
    intro same
    rw [later (unaliased.distinct _ (destination_mem_paths first) _ (destination_mem_paths second) same)] at fresh
    cases fresh
  exact ⟨clear_of_pages unaliased first second pages.symm, clear_of_pages unaliased second first pages⟩

/-- The order in which a batch that goes on treats its items makes no difference, where different paths name different files: the
files are the same in the end, and so is the result of each item, but for the reason that a source could not be read which was
not there in the beginning. -/
theorem run_order (b : Batch) (patient : b.failFast = false) {t : FileTree} (nested : t.Nested) {sources : List Path}
    (unaliased : t.Unaliased (b.paths sources)) {order : List Item} (permuted : order.Perm (b.plan sources)) :
    let ran := b.run t false order
    let planned := b.run t false (b.plan sources)
    (ran.1.current = planned.1.current ∧ ∀ l, ran.1.get? l = planned.1.get? l) ∧ ran.2.map Prod.fst = order ∧
      ∀ i r r', (i, r) ∈ ran.2 → (i, r') ∈ planned.2 → Alike t i r r' := by
  intro ran planned
  have placed : ∀ i ∈ b.plan sources, Placed i := fun i member => placed_planFrom member
  have placed' : ∀ i ∈ order, Placed i := fun i member => placed i (permuted.mem_iff.mp member)
  have free := pairwise_free unaliased
  obtain ⟨superposed, alone⟩ := run_of_free patient placed nested free
  obtain ⟨superposed', alone'⟩ := run_of_free patient placed' nested ((permuted.pairwise_iff Free.symm).mpr free)
  have grows : ∀ {items}, (∀ i ∈ items, Placed i) → t.Grows (b.run t false items).1 := by
    intro items placed
    refine (b.ran t false items).grows fun x member => placed x.1 ?_
    rw [← run_items b t false items]
    exact List.mem_map_of_mem member
  refine ⟨⟨(grows placed').current.trans (grows placed).current.symm, ?_⟩, run_items b t false order, ?_⟩
  · exact superposed'.unique superposed fun i => permuted.mem_iff
  · exact fun i r r' member member' => (alone' _ member).symm.trans (alone _ member')

/-- Two documents, of which the first has a page. -/
def withDocuments : FileTree :=
  ⟨[(["a.md"], .file (Text.encode "---\n---\n")), (["a.mdx"], .file (Text.encode "old")), (["b.md"], .file (Text.encode "---\n---\n"))], []⟩

/-- The page is given as well, and first in turn. It would be written over by the document, and so it is a duplicate. -/
theorem run_order_reversed :
    let sources : List Path := ["a.md", "b.md", "a.mdx"]
    let order := (overwriting.plan sources).reverse
    overwriting.failFast = false ∧ withDocuments.Nested ∧ withDocuments.Unaliased (overwriting.paths sources) ∧
      order.Perm (overwriting.plan sources) ∧
      (overwriting.run withDocuments false order).1.get? ["a.mdx.backup"] = some (.file (Text.encode "old")) := by
  intro sources order
  have nested : withDocuments.Nested := FileTree.nested_of_entries (by decide +kernel)
  have unaliased : withDocuments.Unaliased (overwriting.paths sources) := ⟨by decide +kernel, by decide +kernel⟩
  have permuted : order.Perm (overwriting.plan sources) := List.reverse_perm _
  obtain ⟨⟨-, same⟩, -⟩ := run_order overwriting rfl nested unaliased permuted
  exact ⟨rfl, nested, unaliased, permuted, (same ["a.mdx.backup"]).trans (by decide +kernel)⟩

/-- A source that is looked for in a page is missing as long as the page is, and then it is not in a directory. -/
theorem run_order_missing :
    let sources : List Path := ["b.mdx/c.md", "b.md"]
    let ran := goingOn.run withDocuments false (goingOn.plan sources).reverse
    let planned := goingOn.run withDocuments false (goingOn.plan sources)
    withDocuments.Nested ∧ withDocuments.Unaliased (goingOn.paths sources) ∧
      ∃ i r r', (i, r) ∈ ran.2 ∧ (i, r') ∈ planned.2 ∧ r ≠ r' := by
  refine ⟨FileTree.nested_of_entries (by decide +kernel), ⟨by decide +kernel, by decide +kernel⟩,
    ⟨"b.mdx/c.md", "b.mdx/c.mdx", false⟩, .failed (SourceError.unreadable .notDirectory).failure,
    .failed (SourceError.unreadable .notFound).failure, ?_⟩
  decide +kernel

end NotebookPages.Command.Batch
