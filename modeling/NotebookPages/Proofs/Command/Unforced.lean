import NotebookPages.Command.Run
import NotebookPages.Proofs.Command.Failures
import NotebookPages.Proofs.Reference.Inside
import NotebookPages.Proofs.Storage.Uncovering

/-! Files that a run leaves alone. A page is written over a file only if that is asked for, unless the file comes to light when
directories are made for the page, after it was decided that nothing is there. -/

namespace NotebookPages

namespace Page

variable {o : PageOptions} {t : FileTree} {destination source : Path} {bytes : Bytes} {p : Page} {l : Location}

/-- A page goes over a file without being asked to only in a directory that is not there yet and that climbs up. -/
theorem not_uncovers {d : Dialect} {directory : Option Path} (made : ofFile o t destination source = .ok p) (nested : t.Nested)
    (straight : ∀ above ∈ directory, Path.Straight above) : ¬ t.Uncovers (outputPath d directory source) l := by
  intro uncovers
  obtain ⟨n, named, place⟩ := outputPath_named d directory source
  rw [place] at uncovers
  cases directory with
  | some above => exact uncovers.not_straight nested ((straight above rfl).join named.relative named.straight)
  | none =>
    obtain ⟨-, l, content, -, found, file⟩ := source_of_ofFile made
    obtain ⟨-, -, above, d, -, -, -, parent, leads⟩ := FileTree.exists_parent found file
    rw [Option.none_or, parent, Option.getD_some] at uncovers
    obtain ⟨above', parent', names, rooted⟩ := Path.parent?_join above named.toProper
    exact uncovers.not_leads parent' ((FileTree.Leads.congr names rooted).mpr leads)

end Page

namespace Command

variable {s : Settings} {around : Surroundings} {t u v : FileTree} {l m : Location} {old : Bytes} {input : Bytes}

/-- The page that was made, wherever it went. -/
def Conversion.page? : Conversion → Option Page
  | failed _ | missing | unsupported => none
  | printed p | refused p _ | kept p | planned p | written p _ => some p

namespace ConvertRequest

variable {r : ConvertRequest} {source : Path} {p : Page} {c : Conversion} {k : Option Path}

theorem place_cases (result : r.place t source p = (u, c)) :
    (∃ k, c = .written p k ∧ t.refusal? r.force source p.path = none ∧ t.publish r.backup p.path p.content = (u, .ok k)) ∨
      (∀ q k, c ≠ .written q k) ∧ t.Furnished u := by
  unfold place at result
  split at result
  next =>
    obtain ⟨rfl, rfl⟩ := Prod.mk.inj result
    refine Or.inr ⟨?_, .refl t⟩
    split <;> simp
  next =>
    obtain ⟨rfl, rfl⟩ := Prod.mk.inj result
    exact Or.inr ⟨by simp, .refl t⟩
  next free =>
    split at result
    next =>
      obtain ⟨rfl, rfl⟩ := Prod.mk.inj result
      exact Or.inr ⟨by simp, .refl t⟩
    next =>
      split at result
      next published =>
        obtain ⟨rfl, rfl⟩ := Prod.mk.inj result
        exact Or.inl ⟨_, rfl, free, published⟩
      next failed =>
        obtain ⟨rfl, rfl⟩ := Prod.mk.inj result
        rw [FileTree.publish_error failed]
        exact Or.inr ⟨by simp, FileTree.furnished_prepare t _⟩

/-- The page that a request asks for, from standard input or from a file that is there. -/
inductive Makes (r : ConvertRequest) (s : Settings) (t : FileTree) (p : Page) : Prop where
  | fromInput (given : r.input = standardInput) (output : r.output = some p.path)
  | fromFile (o : PageOptions) (d : Dialect) (given : r.input ≠ standardInput)
      (path : p.path = r.output.getD (Page.outputPath d (s.resolveOutputDir r.outputDir) r.input))
      (made : Page.ofFile o t p.path r.input = .ok p)

/-- A file that is converted gives a page that is put in its place, or no page. -/
theorem convert_file (given : r.input ≠ standardInput) :
    (∃ d p, s.resolveDialect r.dialect = .ok d ∧
        Page.ofFile (s.pageOptions d r.language) t
          (r.output.getD (Page.outputPath d (s.resolveOutputDir r.outputDir) r.input)) r.input = .ok p ∧
        r.convert s t input = r.place t r.input p) ∨
      ∃ c, c.page? = none ∧ r.convert s t input = (t, c) := by
  unfold convert
  split
  next => exact Or.inr ⟨_, rfl, rfl⟩
  next d resolved =>
    dsimp only
    rw [if_neg given]
    unfold runOnFile
    dsimp only
    split
    next => exact Or.inr ⟨_, rfl, rfl⟩
    next =>
      split
      next => exact Or.inr ⟨_, rfl, rfl⟩
      next =>
        split
        next => exact Or.inr ⟨_, rfl, rfl⟩
        next p made => exact Or.inl ⟨d, p, resolved, made, rfl⟩

theorem convert_cases (result : r.convert s t input = (u, c)) :
    (∃ p k, c = .written p k ∧ r.Makes s t p ∧ t.refusal? r.force r.input p.path = none ∧
        t.publish r.backup p.path p.content = (u, .ok k)) ∨
      (∀ p k, c ≠ .written p k) ∧ t.Furnished u := by
  have left : ∀ {c' : Conversion}, c'.page? = none → (t, c') = (u, c) → (∀ p k, c ≠ .written p k) ∧ t.Furnished u := by
    rintro c' none ⟨rfl, rfl⟩
    refine ⟨?_, .refl t⟩
    rintro p k rfl
    cases none
  by_cases given : r.input = standardInput
  · unfold convert at result
    split at result
    next => exact Or.inr (left rfl result)
    next =>
      dsimp only at result
      rw [if_pos given] at result
      unfold runOnInput at result
      dsimp only at result
      split at result
      next => exact Or.inr (left rfl result)
      next p made =>
        split at result
        next =>
          obtain ⟨rfl, rfl⟩ := Prod.mk.inj result
          exact Or.inr ⟨by simp, .refl t⟩
        next output =>
          obtain ⟨q, output⟩ : ∃ q, r.output = some q := Option.ne_none_iff_exists'.mp (by simpa using output)
          rcases place_cases result with ⟨k, rfl, free, published⟩ | other
          · refine Or.inl ⟨p, k, rfl, .fromInput given ?_, given ▸ free, published⟩
            rw [output, Page.path_ofBytes made, output]
            rfl
          · exact Or.inr other
  · rcases r.convert_file given with ⟨d, p, -, made, same⟩ | ⟨c', none, same⟩
    · rw [same] at result
      have path := Page.path_ofFile made
      rcases place_cases result with ⟨k, rfl, free, published⟩ | other
      · exact Or.inl ⟨p, k, rfl, .fromFile _ d given path (path ▸ made), free, published⟩
      · exact Or.inr other
    · rw [same] at result
      exact Or.inr (left none result)

end ConvertRequest

namespace Batch

variable {b : Batch} {i : Item} {r : Result} {results : List (Item × Result)} {ended : Bool}

theorem resolve_eq_ok {q : BatchRequest} {cores : Nat} (resolved : q.resolve s cores = .ok b) :
    b.force = q.force ∧ b.outputDir = s.resolveOutputDir q.outputDir := by
  unfold BatchRequest.resolve at resolved
  cases dialect : s.resolveDialect q.dialect with
  | error e => simp [dialect, bind, Except.bind] at resolved
  | ok d =>
    rw [dialect] at resolved
    obtain rfl := Except.ok.inj resolved
    exact ⟨rfl, rfl⟩

theorem treated_file (unforced : b.force = false) (treated : (if ended then (t, .skipped .earlierFailure) else b.convert t i) = (u, r))
    (there : t.get? l = some (.file old)) : u.get? l = some (.file old) ∨
      ∃ k m, r = .converted k ∧ t.Uncovers i.destination m ∧ (l = m ∨ l = FileTree.backupOf m) := by
  split at treated
  next =>
    obtain ⟨rfl, -⟩ := Prod.mk.inj treated
    exact Or.inl there
  next =>
    rcases convert_cases treated with ⟨k, page, rfl, -, free, -, published⟩ | ⟨-, rfl | rfl⟩
    · rw [unforced] at free
      refine (FileTree.publish_absent (FileTree.absent_of_refusal free) published there).imp_right ?_
      rintro ⟨m, uncovers, change⟩
      exact ⟨k, m, rfl, uncovers, change.imp_right And.right⟩
    · exact Or.inl there
    · exact Or.inl ((FileTree.furnished_prepare t _).keeps there)

/-- A file that a batch changes without being asked to has come to light when the directories of a page were made. -/
theorem Ran.file (run : Ran b t ended results u) (unforced : b.force = false) (there : t.get? l = some (.file old)) :
    u.get? l = some (.file old) ∨ ∃ front i k back v m, results = front ++ (i, .converted k) :: back ∧ Ran b t ended front v ∧
      v.Uncovers i.destination m ∧ (l = m ∨ l = FileTree.backupOf m) := by
  induction run with
  | done t ended => exact Or.inl there
  | @step t u v ended i r results treated more ih =>
    rcases treated_file unforced treated there with kept | ⟨k, m, rfl, uncovers, change⟩
    · refine (ih kept).imp_right ?_
      rintro ⟨front, j, k, back, w, m, rfl, before, change⟩
      exact ⟨(i, r) :: front, j, k, back, w, m, rfl, .step treated before, change⟩
    · exact Or.inr ⟨[], i, k, results, t, m, rfl, .done t ended, uncovers, change⟩

end Batch

namespace ReferenceRequest

variable {r : ReferenceRequest} {page : Reference.GeneratedPage} {pages : List Reference.GeneratedPage}

theorem read_of_readManifest {p : Path} {m : Reference.Manifest} (read : readManifest t p = .ok m) :
    ∃ text, Reference.Manifest.read text = .ok m := by
  unfold readManifest at read
  dsimp only at read
  split at read
  next => cases read
  next text _ => exact ⟨text, Except.mapError_eq_ok_iff.mp read⟩

/-- Reference pages are written one after another, and those that are there are left out. -/
inductive Wrote (r : ReferenceRequest) : FileTree → List Reference.GeneratedPage → FileTree → Prop where
  | done (t : FileTree) : Wrote r t [] t
  | skipped {t u : FileTree} {page : Reference.GeneratedPage} {pages : List Reference.GeneratedPage}
      (there : t.contains (Path.join r.outputDir page.path) = true) (more : Wrote r t pages u) : Wrote r t (page :: pages) u
  | written {t u v : FileTree} {page : Reference.GeneratedPage} {pages : List Reference.GeneratedPage} {k : Option Path}
      (published : t.publish false (Path.join r.outputDir page.path) page.content = (u, .ok k)) (more : Wrote r u pages v) :
      Wrote r t (page :: pages) v

theorem Wrote.nested (wrote : Wrote r t pages u) (nested : t.Nested) : u.Nested := by
  induction wrote with
  | done t => exact nested
  | skipped there more ih => exact ih nested
  | written published more ih => exact ih (nested.publish published)

/-- A file that is changed without being asked to has come to light when the directories of a page were made. -/
theorem file (unforced : r.force = false) (there : t.get? l = some (.file old)) (pages : List Reference.GeneratedPage) :
    (r.writePages t pages).1.get? l = some (.file old) ∨ ∃ front page back v, pages = front ++ page :: back ∧ Wrote r t front v ∧
      v.Uncovers (Path.join r.outputDir page.path) l := by
  induction pages generalizing t with
  | nil => exact Or.inl there
  | cons page pages ih =>
    rw [writePages]
    dsimp only
    split
    next skipped =>
      rw [Bool.and_eq_true] at skipped
      refine (ih there).imp_right ?_
      rintro ⟨front, page', back, v, rfl, wrote, uncovers⟩
      exact ⟨page :: front, page', back, v, rfl, .skipped skipped.1 wrote, uncovers⟩
    next fresh =>
      have absent : t.contains (Path.join r.outputDir page.path) = false := by simpa [unforced] using fresh
      have change : ∀ {u e}, t.publish false (Path.join r.outputDir page.path) page.content = (u, e) →
          u.get? l = some (.file old) ∨ ∃ front page' back v, page :: pages = front ++ page' :: back ∧ Wrote r t front v ∧
            v.Uncovers (Path.join r.outputDir page'.path) l := by
        intro u e published
        refine (FileTree.publish_absent absent published there).imp_right ?_
        rintro ⟨m, uncovers, rfl | ⟨asked, -⟩⟩
        · exact ⟨[], page, pages, t, rfl, .done t, uncovers⟩
        · cases asked
      split
      next failed => exact change failed
      next published =>
        rcases change published with kept | uncovers
        · refine (ih kept).imp_right ?_
          rintro ⟨front, page', back, v, rfl, wrote, uncovers⟩
          exact ⟨page :: front, page', back, v, rfl, .written published wrote, uncovers⟩
        · exact Or.inr uncovers

end ReferenceRequest

theorem SettingsRequest.file (v : Verbosity) (p : Path) (there : t.get? l = some (.file old)) :
    (createFile t v p false).files.get? l = some (.file old) := by
  unfold createFile
  split
  next => exact there
  next fresh =>
    split
    next => exact there
    next u written =>
      obtain ⟨base, n, proper, rfl⟩ := FileTree.proper_of_write written
      obtain ⟨m, stands, free, rfl⟩ := (FileTree.write_join_iff proper).mp written
      show (FileTree.put t m _).get? l = _
      rw [FileTree.get?_put _ _ _ _ stands.below, if_neg, there]
      rintro rfl
      rw [FileTree.contains_join proper stands, there] at fresh
      exact fresh rfl

namespace Request

/-- The request does not ask for files to be written over. -/
def isUnforced : Request → Bool
  | convert r => !r.force
  | batch r => !r.force
  | apidoc r => !r.force
  | config (.create _ force) => !force
  | _ => false

/-- The path or the directory that pages are asked to go to. -/
def target? (s : Settings) : Request → Option Path
  | convert r => r.output.or (s.resolveOutputDir r.outputDir)
  | batch r => s.resolveOutputDir r.outputDir
  | apidoc r => some r.outputDir
  | _ => none

/-- A request writes a page to a path, and the files are those of a tree just before. -/
inductive Writes (s : Settings) (around : Surroundings) (t : FileTree) : Request → FileTree → Path → Prop where
  | page {r : ConvertRequest} {u : FileTree} {p : Page} {k : Option Path} (written : r.convert s t around.input = (u, .written p k)) :
      Writes s around t (.convert r) t p.path
  | item {r : BatchRequest} {b : Batch} {files : List Path} {front back : List (Item × Result)} {i : Item} {k : Option Path}
      {v : FileTree} (resolved : r.resolve s around.cores = .ok b)
      (found : sources t (if r.listed then BatchRequest.inputLines around.input else r.inputs) = .ok files)
      (whole : (b.run t false (b.plan files)).2 = front ++ (i, .converted k) :: back) (before : Batch.Ran b t false front v) :
      Writes s around t (.batch r) v i.destination
  | reference {r : ReferenceRequest} {m : Reference.Manifest} {front back : List Reference.GeneratedPage}
      {page : Reference.GeneratedPage} {v : FileTree} (read : readManifest t r.manifest = .ok m)
      (whole : Reference.generate .mdx m = front ++ page :: back) (before : ReferenceRequest.Wrote r t front v) :
      Writes s around t (.apidoc r) v (Path.join r.outputDir page.path)

/-- Where the directory of the pages does not climb up, no page goes over a file without being asked to. -/
theorem Writes.not_uncovers {q : Request} {p : Path} (writes : Writes s around t q v p) (nested : t.Nested)
    (straight : ∀ above ∈ q.target? s, Path.Straight above) : ¬ v.Uncovers p l := by
  cases writes with
  | @page r u p k written =>
    rcases ConvertRequest.convert_cases written with ⟨p', k', same, makes, -⟩ | ⟨other, -⟩
    · obtain ⟨rfl, -⟩ := Conversion.written.inj same
      cases output : r.output with
      | some given =>
        have path : p.path = given := by
          cases makes with
          | fromInput _ named => exact Option.some.inj (named.symm.trans output)
          | fromFile _ _ _ path => rw [path, output, Option.getD_some]
        have down : Path.Straight given := straight given (by simp [target?, output])
        exact fun uncovers => uncovers.not_straight nested (path ▸ down)
      | none =>
        cases makes with
        | fromInput _ named => simp [output] at named
        | fromFile o d _ path made =>
          rw [output, Option.getD_none] at path
          rw [path]
          exact Page.not_uncovers made nested fun above given => straight above (by simpa [target?, output] using given)
    · exact absurd rfl (other p k)
  | @item r b files front back i k v resolved found whole before =>
    have run := b.ran t false (b.plan files)
    rw [whole] at run
    obtain ⟨ended, w, treated⟩ := run.treated before
    have planned : i ∈ b.plan files := by
      rw [← b.run_items t false (b.plan files), whole]
      simp
    have place : i.destination = Page.outputPath b.options.dialect (s.resolveOutputDir r.outputDir) i.source := by
      rw [Batch.destination_planFrom planned, (Batch.resolve_eq_ok resolved).2]
    split at treated
    next => simp at treated
    next =>
      rcases Batch.convert_cases treated with ⟨k, page, -, -, -, made, -⟩ | ⟨other, -⟩
      · rw [place]
        exact Page.not_uncovers made (before.nested nested) straight
      · exact absurd rfl (other k)
  | @reference r m front back page v read whole before =>
    obtain ⟨text, read⟩ := ReferenceRequest.read_of_readManifest read
    obtain ⟨relative, down⟩ := Reference.straight_of_generate read (show page ∈ Reference.generate .mdx m by simp [whole])
    exact fun uncovers => uncovers.not_straight (before.nested nested) ((straight _ rfl).join relative down)

end Request

theorem files_outcome (w : Verbosity) (source : Path) (t : FileTree) (c : Conversion) : (c.outcome w source t).files = t := by
  cases c <;> rfl

theorem files_outcome_batch (b : Batch) (w : Verbosity) (t : FileTree) (results : List (Item × Result)) :
    (b.outcome w t results).files = t := by
  unfold Batch.outcome
  dsimp only
  split <;> rfl

namespace Invocation

variable {i : Invocation}

theorem files_run_convert (w : Verbosity) (r : ConvertRequest) :
    (run ⟨w, .convert r⟩ s around t).files = (r.convert s t around.input).1 :=
  files_outcome w r.input (r.convert s t around.input).1 (r.convert s t around.input).2

/-- A run that is not asked to write over files changes one only if it has come to light for a page. -/
theorem unforced_file (unforced : i.request.isUnforced = true) (there : t.get? l = some (.file old)) :
    (i.run s around t).files.get? l = some (.file old) ∨
      ∃ v p m, i.request.Writes s around t v p ∧ v.Uncovers p m ∧ (l = m ∨ l = FileTree.backupOf m) := by
  obtain ⟨w, request⟩ := i
  cases request with
  | convert r =>
    have gentle : r.force = false := by simpa [Request.isUnforced] using unforced
    rw [files_run_convert]
    generalize result : r.convert s t around.input = ran
    obtain ⟨u, c⟩ := ran
    rcases ConvertRequest.convert_cases result with ⟨p, k, rfl, -, free, published⟩ | ⟨-, furnished⟩
    · rw [gentle] at free
      refine (FileTree.publish_absent (FileTree.absent_of_refusal free) published there).imp_right ?_
      rintro ⟨m, uncovers, change⟩
      exact ⟨t, p.path, m, .page result, uncovers, change.imp_right And.right⟩
    · exact Or.inl (furnished.keeps there)
  | batch r =>
    have gentle : r.force = false := by simpa [Request.isUnforced] using unforced
    show (r.run w s around t).files.get? l = _ ∨ _
    unfold BatchRequest.run
    split
    next => exact Or.inl there
    next b resolved =>
      split
      next => exact Or.inl there
      next =>
        dsimp only
        split
        next e _ => cases e <;> exact Or.inl there
        next files found =>
          rw [files_outcome_batch]
          have run := b.ran t false (b.plan files)
          refine (run.file ((Batch.resolve_eq_ok resolved).1.trans gentle) there).imp_right ?_
          rintro ⟨front, j, k, back, v, m, whole, before, uncovers, change⟩
          exact ⟨v, j.destination, m, .item resolved found whole before, uncovers, change⟩
  | apidoc r =>
    have gentle : r.force = false := by simpa [Request.isUnforced] using unforced
    show (r.run w t).files.get? l = _ ∨ _
    unfold ReferenceRequest.run
    split
    next => exact Or.inl there
    next m read =>
      have kept := r.file gentle there (Reference.generate .mdx m)
      generalize r.writePages t (Reference.generate .mdx m) = ran at kept
      obtain ⟨u, done, e⟩ := ran
      have files : ∀ o : Outcome, o.files = u → o.files.get? l = some (.file old) ∨
          ∃ v p m, (Request.apidoc r).Writes s around t v p ∧ v.Uncovers p m ∧ (l = m ∨ l = FileTree.backupOf m) := by
        rintro o rfl
        refine kept.imp_right ?_
        rintro ⟨front, page, back, v, whole, before, uncovers⟩
        exact ⟨v, _, l, .reference read whole before, uncovers, Or.inl rfl⟩
      cases e with
      | some e => exact files _ rfl
      | none => exact files _ rfl
  | config r =>
    cases r with
    | create user force =>
      obtain rfl : force = false := by simpa [Request.isUnforced] using unforced
      refine Or.inl ?_
      cases user with
      | false => exact SettingsRequest.file w projectSettingsPath there
      | true =>
        show (SettingsRequest.run (.create true false) w around t).files.get? l = _
        unfold SettingsRequest.run
        dsimp only
        split
        next p _ => exact SettingsRequest.file w p there
        next => exact there
    | display json => cases unforced
    | locate all => cases unforced
  | fix r => cases unforced
  | frontmatter r => cases unforced
  | check r => cases unforced
  | info r => cases unforced

/-- The conversion of one page changes at most the page and its copy. -/
theorem converted_file {r : ConvertRequest} (asked : i.request = .convert r) (there : t.get? l = some (.file old)) :
    let u := (i.run s around t).files
    u.get? l = some (.file old) ∨
      ∃ p, i.request.Writes s around t t p ∧ (u.locate p = .ok l ∨ r.backup = true ∧ u.locate (Path.backup p) = .ok l) := by
  obtain ⟨w, request⟩ := i
  obtain rfl : request = .convert r := asked
  rw [files_run_convert]
  generalize result : r.convert s t around.input = ran
  obtain ⟨u, c⟩ := ran
  rcases ConvertRequest.convert_cases result with ⟨p, k, rfl, -, -, published⟩ | ⟨-, furnished⟩
  · refine (FileTree.publish_file published there).imp_right ?_
    rintro ⟨d, n, -, -, -, change⟩
    exact ⟨p.path, .page result, change.imp And.right And.right⟩
  · exact Or.inl (furnished.keeps there)

/-- The conversion of one page leaves its source as it is, unless that has come to light for the page. -/
theorem source_file {r : ConvertRequest} (asked : i.request = .convert r) (given : r.input ≠ standardInput)
    (found : t.locate r.input = .ok l) (there : t.get? l = some (.file old)) :
    (i.run s around t).files.get? l = some (.file old) ∨ ∃ p, i.request.Writes s around t t p ∧ t.Uncovers p l := by
  obtain ⟨w, request⟩ := i
  obtain rfl : request = .convert r := asked
  rw [files_run_convert]
  generalize result : r.convert s t around.input = ran
  obtain ⟨u, c⟩ := ran
  rcases ConvertRequest.convert_cases result with ⟨p, k, rfl, makes, free, published⟩ | ⟨-, furnished⟩
  · refine (FileTree.publish_file published there).imp_right ?_
    rintro ⟨d, n, proper, place, -, ⟨rfl, -⟩ | ⟨same, -⟩⟩
    · exact ⟨p.path, .page result, FileTree.uncovers_of_refusal free found there place⟩
    · cases makes with
      | fromInput stdin _ => exact absurd stdin given
      | fromFile o d' _ _ made =>
        obtain ⟨format, -, -, known, -⟩ := Page.source_of_ofFile made
        exact absurd same (SourceFormat.locate_ne_backupOf known found there proper)
  · exact Or.inl (furnished.keeps there)

/-- What runs leave alone. A request that does not ask for files to be written over changes a file only if the path of a page led
to nothing and leads to that file, or to the one whose copy it is, when directories are made for the page. The conversion of
one page, however it is asked for, changes at most the page and its copy, and never its source, unless that comes to light in
this way. And none does where every entry lies in a directory and the path or directory that is asked for does not climb up. -/
theorem files_kept (i : Invocation) (s : Settings) (around : Surroundings) (t : FileTree) :
    let u := (i.run s around t).files
    (i.request.isUnforced = true → ∀ l old, t.get? l = some (.file old) → u.get? l = some (.file old) ∨
      ∃ v p m, i.request.Writes s around t v p ∧ v.Uncovers p m ∧ (l = m ∨ l = FileTree.backupOf m)) ∧
    (∀ r, i.request = .convert r → ∀ l old, t.get? l = some (.file old) →
      (u.get? l = some (.file old) ∨ ∃ p, i.request.Writes s around t t p ∧
        (u.locate p = .ok l ∨ r.backup = true ∧ u.locate (Path.backup p) = .ok l)) ∧
      (r.input ≠ standardInput → t.locate r.input = .ok l →
        u.get? l = some (.file old) ∨ ∃ p, i.request.Writes s around t t p ∧ t.Uncovers p l)) ∧
    (t.Nested → (∀ p ∈ i.request.target? s, Path.Straight p) →
      ∀ v p m, i.request.Writes s around t v p → ¬ v.Uncovers p m) :=
  ⟨fun unforced _ _ there => unforced_file unforced there,
    fun _ asked _ _ there => ⟨converted_file asked there, fun given found => source_file asked given found there⟩,
    fun nested straight _ _ _ writes => writes.not_uncovers nested straight⟩

/-- A request to convert one document, whose page goes to a path. -/
def converting (output : Path) (force : Bool) : Invocation := ⟨.normal, .convert { input := "a.md", output, force }⟩

/-- A document and a text beside it. -/
def withText : FileTree := ⟨[(["a.md"], .file (Text.encode "---\n---\n\x7b")), (["b.txt"], .file (Text.encode "old"))], []⟩

theorem files_kept_beside : (converting "new/c.mdx" false).request.isUnforced = true ∧ withText.Nested ∧ Path.Straight "new/c.mdx" ∧
    withText.get? ["b.txt"] = some (.file (Text.encode "old")) ∧
    ((converting "new/c.mdx" false).run {} {} withText).files.get? ["b.txt"] = some (.file (Text.encode "old")) := by
  have nested : withText.Nested := FileTree.nested_of_entries (by decide)
  have there : withText.get? ["b.txt"] = some (.file (Text.encode "old")) := by decide
  have straight : ∀ p ∈ (converting "new/c.mdx" false).request.target? {}, Path.Straight p := by decide
  have kept := files_kept (converting "new/c.mdx" false) {} {} withText
  refine ⟨rfl, nested, by decide, there, (kept.1 rfl _ _ there).resolve_right ?_⟩
  rintro ⟨v, p, m, writes, uncovers, -⟩
  exact kept.2.2 nested straight v p m writes uncovers

/-- A page goes over another text without being asked to, and over its own source. -/
theorem files_not_kept :
    (converting "new/../b.txt" false).request.isUnforced = true ∧
      withText.get? ["b.txt"] = some (.file (Text.encode "old")) ∧
      ((converting "new/../b.txt" false).run {} {} withText).files.get? ["b.txt"] = some (.file (Text.encode "---\n---\n\\\x7b")) ∧
    withText.locate "a.md" = .ok ["a.md"] ∧ withText.get? ["a.md"] = some (.file (Text.encode "---\n---\n\x7b")) ∧
      ((converting "new/../a.md" true).run {} {} withText).files.get? ["a.md"] = some (.file (Text.encode "---\n---\n\\\x7b")) := by
  decide +kernel

end Invocation

end Command
end NotebookPages
