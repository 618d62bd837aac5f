import NotebookPages.Proofs.Path.Names
import NotebookPages.Proofs.Results
import NotebookPages.Reference.Page

/-! Where reference pages go. What a manifest names stays inside the directory of its pages. -/

namespace NotebookPages.Reference

variable {m : Manifest} {p : Path} {seen paths : List Path}

theorem straight_of_staysInside (inside : Manifest.staysInside p = true) : Path.isAbsolute p = false ∧ Path.Straight p := by
  rw [Manifest.staysInside, Bool.and_eq_true, List.all_eq_true] at inside
  obtain ⟨-, inside⟩ := inside
  constructor
  · rw [← Bool.not_eq_true]
    intro rooted
    exact Bool.false_ne_true (inside _ (Path.root_mem_components.mpr rooted))
  · intro up
    have climbs : Path.Component.up ∈ Path.components p := List.mem_append_right _ (List.mem_map.mpr ⟨_, up, rfl⟩)
    exact Bool.false_ne_true (inside _ climbs)

theorem staysInside_of_checkPaths (checked : Manifest.checkPaths seen paths = .ok ()) : ∀ p ∈ paths, Manifest.staysInside p = true := by
  induction paths generalizing seen with
  | nil => simp
  | cons p paths ih =>
    rw [Manifest.checkPaths] at checked
    split at checked
    next => cases checked
    next inside =>
      split at checked
      next => cases checked
      next => exact List.forall_mem_cons.mpr ⟨by simpa using inside, ih checked⟩

theorem paths_generate (d : Dialect) (m : Manifest) : (generate d m).map GeneratedPage.path = m.paths := by
  simp only [generate, Manifest.paths, List.map_append, List.map_map]
  rfl

/-- No page of a manifest climbs out of its directory. -/
theorem straight_of_generate {text : Text} (read : Manifest.read text = .ok m) {d : Dialect} {page : GeneratedPage}
    (member : page ∈ generate d m) : Path.isAbsolute page.path = false ∧ Path.Straight page.path := by
  have inside : page.path ∈ m.paths := by
    rw [← paths_generate d]
    exact List.mem_map_of_mem member
  rw [Manifest.read] at read
  split at read
  next => cases read
  next m' _ =>
    obtain ⟨done, checked, rfl⟩ := Except.map_eq_ok_iff.mp read
    exact straight_of_staysInside (staysInside_of_checkPaths checked _ inside)

end NotebookPages.Reference
