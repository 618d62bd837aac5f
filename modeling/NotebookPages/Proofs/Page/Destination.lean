import NotebookPages.Page.Convert
import NotebookPages.Proofs.Path.Names
import NotebookPages.Proofs.Text.Slug

/-! The place of a page is a name of its own in the directory of its source, or in the one that is asked for. No page has the
name of a backup. -/

namespace NotebookPages

namespace Page

/-- A name that a page can have. -/
structure Named (n : Text) : Prop extends Path.Proper n where
  page : ¬ (".backup" : Text) <:+ n

theorem named (d : Dialect) {stem : Text} (whole : '/' ∉ stem) : Named (stem ++ "." ++ d.extension) where
  whole := by cases d <;> simpa [Dialect.extension] using whole
  some := by simp
  here := fun same => by
    have length := congrArg List.length same
    cases d <;> simp [Dialect.extension] at length
  up := fun same => by
    have length := congrArg List.length same
    cases d <;> simp [Dialect.extension] at length
  page := fun ends => by
    obtain ⟨front, whole⟩ := ends
    have last := congrArg List.getLast? whole
    cases d <;> simp [Dialect.extension] at last

/-- The stem of a page, of which a page has the same stem again. -/
structure Settled (stem : Text) : Prop where
  some : stem ≠ []
  slug : Text.slug stem = stem

theorem Settled.whole {stem : Text} (settled : Settled stem) : '/' ∉ stem := settled.slug ▸ Text.slash_notMem_slug stem

/-- The stem of the page of a source. -/
theorem outputPath_stem (d : Dialect) (directory : Option Path) (input : Path) : ∃ stem, Settled stem ∧
    outputPath d directory input = Path.join ((directory.or (Path.parent? input)).getD []) (stem ++ "." ++ d.extension) := by
  refine ⟨_, ?_, rfl⟩
  split
  next => exact ⟨by decide, by decide⟩
  next some =>
    refine ⟨by simpa using some, ?_⟩
    cases Path.stem? input with
    | none => rfl
    | some stem => exact Text.slug_slug stem

/-- The page of a page has the same stem. -/
theorem outputPath_of_page {stem : Text} {p : Path} {d' : Dialect} (settled : Settled stem)
    (name : Path.fileName? p = some (stem ++ "." ++ d'.extension)) (d : Dialect) (directory : Option Path) :
    outputPath d directory p = Path.join ((directory.or (Path.parent? p)).getD []) (stem ++ "." ++ d.extension) := by
  have dotless : '.' ∉ d'.extension := by cases d' <;> decide
  have same : Path.stem? p = some stem := by
    rw [Path.stem?, name, Option.map_some, List.append_assoc]
    exact congrArg (some ·.1) (Path.splitName_extension settled.some dotless)
  unfold outputPath
  rw [same]
  simp [settled.slug, settled.some]

/-- A page goes into the directory that is asked for, or else into the one of its source. -/
theorem outputPath_named (d : Dialect) (directory : Option Path) (input : Path) :
    ∃ n, Named n ∧ outputPath d directory input = Path.join ((directory.or (Path.parent? input)).getD []) n := by
  obtain ⟨stem, settled, place⟩ := outputPath_stem d directory input
  exact ⟨_, named d settled.whole, place⟩

end Page

/-- A copy is no source. -/
theorem SourceFormat.ofPath?_backup {p : Path} {n : Text} (name : Path.fileName? p = some (n ++ ".backup")) (named : n ≠ []) :
    ofPath? p = none := by
  rw [ofPath?, Path.extension?_backup name named]
  decide

end NotebookPages
