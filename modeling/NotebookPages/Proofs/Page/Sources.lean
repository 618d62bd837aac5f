import NotebookPages.Proofs.Page.Destination
import NotebookPages.Proofs.Storage.Nesting
import NotebookPages.Storage.Source

/-! Sources of pages. A page is made of the bytes of a file that is there, and it knows where it goes. No source has the name of a
backup. -/

namespace NotebookPages

namespace Page

variable {o : PageOptions} {t u : FileTree} {destination source : Path} {bytes : Bytes} {p : Page}

theorem path_ofBytes (made : ofBytes o destination bytes = .ok p) : p.path = destination := by
  obtain ⟨n, -, rfl⟩ := Except.map_eq_ok_iff.mp made
  rfl

theorem path_ofMarkdown (o : PageOptions) (destination : Path) (text : Text) : (ofMarkdown o destination text).path = destination := by
  unfold ofMarkdown
  split <;> rfl

theorem path_ofFile (made : ofFile o t destination source = .ok p) : p.path = destination := by
  unfold ofFile at made
  split at made
  next => cases made
  next =>
    split at made
    next bytes _ => exact path_ofBytes (Except.mapError_eq_ok_iff.mp made)
    next => cases made
  next =>
    split at made
    next text _ =>
      obtain rfl := Except.ok.inj made
      exact path_ofMarkdown o destination text
    next => cases made

theorem source_of_ofFile (made : ofFile o t destination source = .ok p) :
    ∃ format l content, SourceFormat.ofPath? source = some format ∧ t.locate source = .ok l ∧ t.get? l = some (.file content) := by
  have read : ∃ format bytes, SourceFormat.ofPath? source = some format ∧ t.readBytes source = .ok bytes := by
    unfold ofFile at made
    split at made
    next => cases made
    next format =>
      split at made
      next bytes read => exact ⟨_, bytes, format, read⟩
      next => cases made
    next format =>
      split at made
      next text read =>
        obtain ⟨bytes, there, -⟩ := Except.bind_eq_ok_iff.mp read
        exact ⟨_, bytes, format, there⟩
      next => cases made
  obtain ⟨format, bytes, known, read⟩ := read
  obtain ⟨l, found, file⟩ := FileTree.readBytes_eq_ok read
  exact ⟨format, l, bytes, known, found, file⟩

/-- A page is made of the bytes of its source alone. -/
theorem ofFile_congr (same : u.readBytes source = t.readBytes source) :
    ofFile o u destination source = ofFile o t destination source := by
  rw [ofFile, ofFile, same, FileTree.readText, FileTree.readText, same]

theorem ofFile_unreadable {format : SourceFormat} {e : StorageError} (known : SourceFormat.ofPath? source = some format)
    (failed : t.readBytes source = .error e) : ofFile o t destination source = .error (.unreadable e) := by
  have unread : t.readText source = .error e := by
    rw [FileTree.readText, failed]
    rfl
  rw [ofFile, known, failed, unread]
  cases format <;> rfl

theorem ofFile_unsupported (unknown : SourceFormat.ofPath? source = none) :
    ofFile o t destination source = .error (.unsupported source) := by
  rw [ofFile, unknown]

end Page

namespace SourceFormat

variable {t : FileTree} {l d : Location} {old : Bytes} {p : Path} {n : Text} {format : SourceFormat}

/-- A source has a name that no copy has. -/
theorem locate_ne_backupOf (known : ofPath? p = some format) (found : t.locate p = .ok l)
    (there : t.get? l = some (.file old)) (proper : Path.Proper n) : l ≠ FileTree.backupOf (d ++ [n]) := by
  rintro rfl
  obtain ⟨front, k, -, -, rfl, opens, solid, -⟩ := FileTree.exists_parent found there
  by_cases up : k = ['.', '.']
  · rw [up, ofPath?, Path.extension?, Path.fileName?_up opens] at known
    cases known
  · have named : Path.Proper k := ⟨solid, up⟩
    rw [← Path.join_front opens named] at found
    obtain ⟨d', -, same⟩ := ((FileTree.locate_join_iff named).mp found).1.inside
    rw [FileTree.backupOf_append] at same
    obtain rfl : n ++ ".backup" = k := by simpa using (List.append_inj' same rfl).2
    rw [ofPath?_backup (Path.fileName?_opens opens named) proper.some] at known
    cases known

/-- Where the path of a source leads straight down, that is not where a copy would be. -/
theorem place_ne_backupOf (known : ofPath? p = some format) (straight : Path.Straight p) (d : Location) (named : n ≠ []) :
    t.place p ≠ FileTree.backupOf (d ++ [n]) := by
  intro same
  cases name : Path.fileName? p with
  | none =>
    rw [ofPath?, Path.extension?, name] at known
    cases known
  | some k =>
    obtain ⟨front, whole⟩ := List.getLast?_eq_some_iff.mp ((Path.fileName?_straight straight).symm.trans name)
    rw [FileTree.place, whole, ← List.append_assoc, FileTree.backupOf_append] at same
    obtain rfl := List.singleton_inj.mp (List.append_inj' same rfl).2
    rw [ofPath?_backup name named] at known
    cases known

end SourceFormat

end NotebookPages
