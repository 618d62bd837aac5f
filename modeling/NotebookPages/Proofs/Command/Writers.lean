import NotebookPages.Proofs.Command.Running

/-! Who writes which page of a batch. What an item changes is its page and the backup beside it, so a page that one item writes
has in its backup what was there before the batch. Two items write one page only where their directories are written
differently. -/

namespace NotebookPages.Command.Batch

variable {b : Batch} {t u : FileTree} {i : Item} {r : Result} {results : List (Item × Result)} {l d : Location} {n : Text} {old : Bytes}
  {ended : Bool} {k : Option Path}

/-- Where the page of an item is, if it was converted. -/
def page? (t : FileTree) : Item × Result → Option Location
  | (i, .converted _) => (t.locate i.destination).toOption
  | _ => none

/-- Where the pages are that a batch has written, one for each item that was converted. -/
def pages (t : FileTree) (results : List (Item × Result)) : List Location := results.filterMap (page? t)

theorem page?_eq_some_iff : page? t (i, r) = some l ↔ (∃ k, r = .converted k) ∧ t.locate i.destination = .ok l := by
  cases r with
  | converted k =>
    rw [page?]
    cases t.locate i.destination <;> simp [Except.toOption]
  | skipped _ => simp [page?]
  | failed _ => simp [page?]

theorem mem_pages_iff : l ∈ pages t results ↔ ∃ i k, (i, .converted k) ∈ results ∧ t.locate i.destination = .ok l := by
  rw [pages, List.mem_filterMap]
  constructor
  · rintro ⟨⟨i, r⟩, member, found⟩
    obtain ⟨⟨k, rfl⟩, place⟩ := page?_eq_some_iff.mp found
    exact ⟨i, k, member, place⟩
  · rintro ⟨i, k, member, place⟩
    exact ⟨_, member, page?_eq_some_iff.mpr ⟨⟨k, rfl⟩, place⟩⟩

theorem pages_converted (found : t.locate i.destination = .ok l) : pages t ((i, .converted k) :: results) = l :: pages t results :=
  List.filterMap_cons_some (page?_eq_some_iff.mpr ⟨⟨k, rfl⟩, found⟩)

theorem pages_other (other : ∀ k, r ≠ .converted k) : pages t ((i, r) :: results) = pages t results := by
  refine List.filterMap_cons_none (Option.eq_none_iff_forall_ne_some.mpr fun l found => ?_)
  obtain ⟨⟨k, same⟩, -⟩ := page?_eq_some_iff.mp found
  exact other k same

theorem located_named (placed : Placed i) (found : t.locate i.destination = .ok (d ++ [n])) : Page.Named n := by
  obtain ⟨base, m, place, named⟩ := placed
  rw [place] at found
  obtain ⟨e, -, same⟩ := ((FileTree.locate_join_iff named.toProper).mp found).1.inside
  obtain rfl : n = m := by simpa using (List.append_inj' same rfl).2
  exact named

/-- No page stands where a backup does. -/
theorem page_ne_backup {e : Location} {m : Text} (named : Page.Named n) : d ++ [n] ≠ e ++ [m ++ ".backup"] := by
  intro same
  obtain rfl : n = m ++ ".backup" := by simpa using (List.append_inj' same rfl).2
  exact named.page (List.suffix_append m _)

/-- A converted item has its page in the end. -/
theorem Ran.located (run : Ran b t ended results u) (placed : ∀ x ∈ results, Placed x.1) (member : (i, .converted k) ∈ results) :
    ∃ d n content, u.locate i.destination = .ok (d ++ [n]) ∧ u.get? (d ++ [n]) = some (.file content) := by
  induction run with
  | done t ended => cases member
  | step treated more ih =>
    obtain ⟨first, others⟩ := List.forall_mem_cons.mp placed
    rcases List.mem_cons.mp member with same | member
    · obtain ⟨rfl, rfl⟩ := Prod.mk.inj same
      rcases treated_cases first treated with ⟨-, -, n, content, d, -, published⟩ | ⟨other, -⟩
      · obtain ⟨content', there⟩ := (more.grows others).file published.written
        exact ⟨d, n, content', (more.grows others).locate published.located, there⟩
      · exact absurd rfl (other k)
    · exact ih others member

/-- A file that is no page of the batch and no backup of one stays as it was. -/
theorem Ran.untouched (run : Ran b t ended results u) (placed : ∀ x ∈ results, Placed x.1) (there : t.get? l = some (.file old))
    (apart : ∀ d n, d ++ [n] ∈ pages u results → l ≠ d ++ [n] ∧ l ≠ d ++ [n ++ ".backup"]) : u.get? l = some (.file old) := by
  induction run with
  | done t ended => exact there
  | @step t u v ended i r results treated more ih =>
    obtain ⟨first, others⟩ := List.forall_mem_cons.mp placed
    rcases treated_cases first treated with ⟨⟨k, rfl⟩, -, n, content, d, -, published⟩ | ⟨other, furnished⟩
    · rw [pages_converted ((more.grows others).locate published.located)] at apart
      obtain ⟨page, backup⟩ := apart d n List.mem_cons_self
      exact ih others (published.keeps page backup there) fun e m member => apart e m (List.mem_cons_of_mem _ member)
    · rw [pages_other other] at apart
      exact ih others (furnished.keeps there) apart

/-- Where only one item writes a page, the backup has what was there before. -/
theorem Ran.kept (run : Ran b t ended results u) (placed : ∀ x ∈ results, Placed x.1) (asked : b.backup = true)
    (member : (i, .converted k) ∈ results) (found : u.locate i.destination = .ok (d ++ [n]))
    (alone : (pages u results).count (d ++ [n]) = 1) (there : t.get? (d ++ [n]) = some (.file old)) :
    u.locate (Path.backup i.destination) = .ok (d ++ [n ++ ".backup"]) ∧ u.get? (d ++ [n ++ ".backup"]) = some (.file old) := by
  induction run with
  | done t ended => cases member
  | @step t u v ended j r results treated more ih =>
    obtain ⟨first, others⟩ := List.forall_mem_cons.mp placed
    rcases List.mem_cons.mp member with same | later
    · obtain ⟨rfl, rfl⟩ := Prod.mk.inj same
      rcases treated_cases first treated with ⟨-, -, m, content, e, -, published⟩ | ⟨other, -⟩
      · -- The item itself is treated here: its copy is made, and no later item has the page or the copy among what it writes.
        have grows := more.grows others
        obtain ⟨rfl, rfl⟩ : e = d ∧ m = n := by
          simpa using List.append_inj' (Except.ok.inj ((grows.locate published.located).symm.trans found)) rfl
        obtain ⟨backup, copy⟩ := published.kept asked old there
        refine ⟨grows.locate backup, more.untouched others copy fun d' n' written => ?_⟩
        obtain ⟨j, k', converted, place⟩ := mem_pages_iff.mp written
        refine ⟨(page_ne_backup (located_named (others _ converted) place)).symm, fun same => ?_⟩
        obtain ⟨rfl, rfl⟩ : e = d' ∧ m = n' := by simpa using List.append_inj' same rfl
        rw [pages_converted found, List.count_cons_self] at alone
        exact absurd (List.count_pos_iff.mpr written) (by omega)
      · exact absurd rfl (other k)
    · -- The item is treated later, and what is treated before it leaves the page alone.
      have written : d ++ [n] ∈ pages v results := mem_pages_iff.mpr ⟨i, k, later, found⟩
      rcases treated_cases first treated with ⟨⟨k', rfl⟩, -, m, content, e, -, published⟩ | ⟨other, furnished⟩
      · rw [pages_converted ((more.grows others).locate published.located)] at alone
        have apart : d ++ [n] ≠ e ++ [m] := by
          intro same
          rw [← same, List.count_cons_self] at alone
          exact absurd (List.count_pos_iff.mpr written) (by omega)
        rw [List.count_cons_of_ne (Ne.symm apart)] at alone
        have named := located_named (others _ later) found
        exact ih others later found alone (published.keeps apart (page_ne_backup named) there)
      · rw [pages_other other] at alone
        exact ih others later found alone (furnished.keeps there)

theorem Ran.converted_fresh (run : Ran b t ended results u) (placed : ∀ x ∈ results, Placed x.1)
    (member : (i, .converted k) ∈ results) : i.duplicate = false := by
  induction run with
  | done t ended => cases member
  | step treated more ih =>
    obtain ⟨first, others⟩ := List.forall_mem_cons.mp placed
    rcases List.mem_cons.mp member with same | later
    · obtain ⟨rfl, rfl⟩ := Prod.mk.inj same
      rcases treated_cases first treated with ⟨-, fresh, -⟩ | ⟨other, -⟩
      · exact fresh
      · exact absurd rfl (other k)
    · exact ih others later

/-- Converted items with different results have destinations that are written differently. -/
theorem Ran.pairwise (run : Ran b t ended results u) (placed : ∀ x ∈ results, Placed x.1)
    (planned : (results.map Prod.fst).Pairwise fun i j => Path.same i.destination j.destination = true → j.duplicate = true) :
    results.Pairwise fun x y => ∀ k, y.2 = .converted k → Path.same x.1.destination y.1.destination = false := by
  refine (List.pairwise_map.mp planned).imp_of_mem fun {x y} _ member later k converted => ?_
  have fresh : y.1.duplicate = false := run.converted_fresh placed (i := y.1) (k := k) (by rw [← converted]; exact member)
  rw [← Bool.not_eq_true]
  intro same
  rw [later same] at fresh
  cases fresh

/-- No page is written twice if and only if the destinations that lead to one page are written the same. -/
theorem nodup_pages_iff
    (fresh : results.Pairwise fun x y => ∀ k, y.2 = .converted k → Path.same x.1.destination y.1.destination = false) :
    (pages t results).Nodup ↔ ∀ i j k k' l, (i, .converted k) ∈ results → (j, .converted k') ∈ results →
      t.locate i.destination = .ok l → t.locate j.destination = .ok l → Path.same i.destination j.destination = true := by
  rw [pages, List.Nodup, List.pairwise_filterMap]
  constructor
  · intro apart i j k k' l first second here there
    refine List.Pairwise.forall_of_forall_of_flip (R := fun x y => ∀ l, page? t x = some l → page? t y = some l →
      Path.same x.1.destination y.1.destination = true) ?_ ?_ ?_ first second l
      (page?_eq_some_iff.mpr ⟨⟨k, rfl⟩, here⟩) (page?_eq_some_iff.mpr ⟨⟨k', rfl⟩, there⟩)
    · exact fun x _ l _ _ => Path.same_refl _
    · exact apart.imp fun split l found found' => absurd rfl (split l found l found')
    · exact apart.imp fun split l found found' => absurd rfl (split l found' l found)
  · intro written
    refine fresh.imp_of_mem fun {x y} first second later l found l' found' meet => ?_
    obtain ⟨⟨k, converted⟩, here⟩ := page?_eq_some_iff.mp found
    obtain ⟨⟨k', converted'⟩, there⟩ := page?_eq_some_iff.mp found'
    have same := written x.1 y.1 k k' l (converted ▸ first) (converted' ▸ second) here (meet ▸ there)
    rw [later k' converted'] at same
    cases same

/-- In a directory of their own, destinations that lead to one page are written the same. -/
theorem same_of_directory {p : Path} {i j : Item} (asked : b.outputDir = some p)
    (first : i.destination = Page.outputPath b.options.dialect b.outputDir i.source)
    (second : j.destination = Page.outputPath b.options.dialect b.outputDir j.source)
    (here : t.locate i.destination = .ok l) (there : t.locate j.destination = .ok l) : i.destination = j.destination := by
  have inside : ∀ source, ∃ n, Page.Named n ∧ Page.outputPath b.options.dialect b.outputDir source = Path.join p n := by
    intro source
    rw [asked]
    exact Page.outputPath_named b.options.dialect (some p) source
  obtain ⟨n, named, place⟩ := inside i.source
  obtain ⟨n', named', place'⟩ := inside j.source
  rw [first, place] at here ⊢
  rw [second, place'] at there ⊢
  obtain ⟨d, -, rfl⟩ := ((FileTree.locate_join_iff named.toProper).mp here).1.inside
  obtain ⟨d', -, same⟩ := ((FileTree.locate_join_iff named'.toProper).mp there).1.inside
  obtain rfl : n = n' := by simpa using (List.append_inj' same rfl).2
  rfl

/-- What the items of a batch write. Every converted item has its page in the end; no page is written twice if and only if the
destinations that lead to one page are written the same, as they are in a directory that is asked for; and where only one
item writes a page, the backup holds what was there before the batch. -/
theorem pages_run (b : Batch) (t : FileTree) (sources : List Path) :
    let ran := b.run t false (b.plan sources)
    (∀ i k, (i, .converted k) ∈ ran.2 → ∃ l content, ran.1.locate i.destination = .ok l ∧ ran.1.get? l = some (.file content)) ∧
    ((pages ran.1 ran.2).Nodup ↔ ∀ i j k k' l, (i, .converted k) ∈ ran.2 → (j, .converted k') ∈ ran.2 →
      ran.1.locate i.destination = .ok l → ran.1.locate j.destination = .ok l → Path.same i.destination j.destination = true) ∧
    (b.outputDir.isSome = true → (pages ran.1 ran.2).Nodup) ∧
    (b.backup = true → ∀ i k l content, (i, .converted k) ∈ ran.2 → ran.1.locate i.destination = .ok l →
      (pages ran.1 ran.2).count l = 1 → t.get? l = some (.file content) →
      ran.1.readBytes (Path.backup i.destination) = .ok content) := by
  intro ran
  have run : Ran b t false ran.2 ran.1 := b.ran t false (b.plan sources)
  have items : ran.2.map Prod.fst = b.plan sources := b.run_items t false (b.plan sources)
  have planned : ∀ x ∈ ran.2, x.1 ∈ b.plan sources := fun x member => items ▸ List.mem_map_of_mem member
  have placed : ∀ x ∈ ran.2, Placed x.1 := fun x member => placed_planFrom (planned x member)
  have written := nodup_pages_iff (t := ran.1) (run.pairwise placed (items ▸ pairwise_planFrom b [] sources))
  refine ⟨fun i k member => ?_, written, fun asked => ?_, fun asked i k l content member found alone there => ?_⟩
  · obtain ⟨d, n, content, located⟩ := run.located placed member
    exact ⟨_, content, located⟩
  · obtain ⟨p, asked⟩ := Option.isSome_iff_exists.mp asked
    refine written.mpr fun i j k k' l first second here there => ?_
    rw [same_of_directory asked (destination_planFrom (planned _ first)) (destination_planFrom (planned _ second)) here there]
    exact Path.same_refl _
  · obtain ⟨d, n, -, place, -⟩ := run.located placed member
    obtain rfl : l = d ++ [n] := Except.ok.inj (found.symm.trans place)
    obtain ⟨backup, copy⟩ := run.kept placed asked member found alone there
    rw [FileTree.readBytes, backup]
    simp only [bind, Except.bind, copy]

/-- A batch that overwrites pages and keeps what they were. -/
def overwriting : Batch := ⟨{}, none, false, true, true, 1⟩

/-- A document beside the page that it goes to. -/
def withPage : FileTree := ⟨[(["a.md"], .file (Text.encode "---\n---\n")), (["a.mdx"], .file (Text.encode "old"))], []⟩

theorem pages_run_overwriting :
    (overwriting.run withPage false (overwriting.plan ["a.md"])).1.readBytes "a.mdx.backup" = .ok (Text.encode "old") :=
  (pages_run overwriting withPage ["a.md"]).2.2.2 rfl ⟨"a.md", "a.mdx", false⟩ (some "a.mdx.backup") ["a.mdx"] (Text.encode "old")
    (by decide +kernel) (by decide +kernel) (by decide +kernel) (by decide +kernel)

/-- A source that is given twice, once with a dot in front, is converted twice, and the second page replaces the backup. -/
theorem pages_run_twice :
    let ran := overwriting.run withPage false (overwriting.plan ["a.md", "./a.md"])
    pages ran.1 ran.2 = ([["a.mdx"], ["a.mdx"]] : List Location) ∧ withPage.readBytes "a.mdx" = .ok (Text.encode "old") ∧
      ran.1.readBytes "a.mdx.backup" = .ok (Text.encode "---\n---\n") := by
  decide +kernel

end NotebookPages.Command.Batch
