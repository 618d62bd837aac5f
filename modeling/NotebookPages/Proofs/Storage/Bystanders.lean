import NotebookPages.Proofs.Storage.Apart
import NotebookPages.Proofs.Storage.Uncovering

/-! Files beside a page. Where paths lead straight down, whether two of them lead to one file can be read off their names, and a page
that is published is seen only by the paths that lead to it, to its backup or to the directories on the way. -/

namespace NotebookPages.FileTree

variable {t u : FileTree} {l : Location} {p q base : Path} {n : Text} {content : Text} {keep : Bool}

theorem place_of_same (same : Path.same p q = true) : t.place p = t.place q := by
  obtain ⟨names, rooted⟩ := Path.names_of_same same
  rw [place, place, start, start, names, rooted]

/-- Paths that lead straight down, of which no two name one place unless they are the same in writing. -/
structure Unaliased (t : FileTree) (paths : List Path) : Prop where
  straight : ∀ p ∈ paths, Path.Straight p
  distinct : ∀ p ∈ paths, ∀ q ∈ paths, t.place p = t.place q → Path.same p q = true

theorem Unaliased.mono {paths paths' : List Path} (unaliased : t.Unaliased paths) (fewer : paths' ⊆ paths) : t.Unaliased paths' where
  straight p inside := unaliased.straight p (fewer inside)
  distinct p inside q inside' := unaliased.distinct p (fewer inside) q (fewer inside')

theorem Unaliased.congr {paths : List Path} (unaliased : t.Unaliased paths) (current : u.current = t.current) :
    u.Unaliased paths where
  straight := unaliased.straight
  distinct p inside q inside' same := by
    rw [place_of_current current, place_of_current current] at same
    exact unaliased.distinct p inside q inside' same

/-- Paths that name one place only where they are written alike lead to one file only then. -/
theorem sameFile_straight (straight : Path.Straight p) (straight' : Path.Straight q)
    (distinct : t.place p = t.place q → Path.same p q = true) : t.sameFile p q = Path.same p q := by
  have written : t.place p = t.place q ↔ Path.same p q = true := ⟨distinct, place_of_same⟩
  unfold sameFile
  split
  next l m found found' =>
    rw [place_of_locate straight found, place_of_locate straight' found', Bool.eq_iff_iff, decide_eq_true_iff, written]
  next => rfl

/-- Beside the page and its backup, only directories come up. -/
theorem publish_elsewhere (proper : Path.Proper n) (straight : Path.Straight base) (page : l ≠ t.place (Path.join base n))
    (backup : l ≠ backupOf (t.place (Path.join base n))) (keep : Bool) (content : Text) :
    (t.publish keep (Path.join base n) content).1.get? l = (t.prepare (Path.join base n)).1.get? l := by
  generalize result : t.publish keep (Path.join base n) content = ran
  obtain ⟨u, r⟩ := ran
  cases r with
  | error e => rw [publish_error result]
  | ok k =>
    obtain ⟨made, d, prepared, replaced⟩ := publish_join_ok proper result
    have furnished : t.Furnished made := by simpa [prepared] using furnished_prepare t (Path.join base n)
    have here : d = t.place base := (place_of_leads straight replaced.leads).trans (place_of_current furnished.current base)
    rw [place_join t base proper, ← here] at page backup
    rw [prepared]
    exact replaced.others page backup

theorem contains_same (nested : t.Nested) (grows : t.Grows u) (straight : Path.Straight p)
    (same : u.get? (t.place p) = t.get? (t.place p)) : u.contains p = t.contains p := by
  rw [Bool.eq_iff_iff, contains_iff, contains_iff]
  constructor
  · rintro ⟨l, found, there⟩
    obtain rfl := (place_of_locate straight found).trans (place_of_current grows.current p)
    rw [same] at there
    exact ⟨_, nested.locate grows straight there found, there⟩
  · rintro ⟨l, found, there⟩
    exact ⟨l, grows.locate found, grows.isSome there⟩

/-- A file is read later as it was before, or it was not there and still is no file. -/
theorem readBytes_later (nested : t.Nested) (grows : t.Grows u) (straight : Path.Straight p)
    (entry : u.get? (t.place p) = t.get? (t.place p) ∨ t.get? (t.place p) = none ∧ u.get? (t.place p) = some .directory) :
    u.readBytes p = t.readBytes p ∨
      t.contains p = false ∧ (∃ e, t.readBytes p = .error e) ∧ ∃ e, u.readBytes p = .error e := by
  by_cases there : t.contains p = true
  · obtain ⟨l, found, there⟩ := contains_iff.mp there
    obtain rfl := place_of_locate straight found
    rcases entry with same | ⟨none, -⟩
    · left
      rw [readBytes, readBytes, found, grows.locate found]
      simp only [bind, Except.bind, same]
    · rw [none] at there
      cases there
  · right
    refine ⟨by simpa using there, ?_, ?_⟩
    · cases read : t.readBytes p with
      | error e => exact ⟨e, rfl⟩
      | ok content =>
        obtain ⟨l, found, file⟩ := readBytes_eq_ok read
        exact absurd (contains_iff.mpr ⟨l, found, by rw [file]; rfl⟩) there
    · cases read : u.readBytes p with
      | error e => exact ⟨e, rfl⟩
      | ok content =>
        obtain ⟨l, found, file⟩ := readBytes_eq_ok read
        obtain rfl := (place_of_locate straight found).trans (place_of_current grows.current p)
        rcases entry with same | ⟨-, directory⟩
        · rw [same] at file
          exact absurd (contains_iff.mpr ⟨_, nested.locate grows straight (by rw [file]; rfl) found, by rw [file]; rfl⟩) there
        · rw [directory] at file
          cases file

end NotebookPages.FileTree
