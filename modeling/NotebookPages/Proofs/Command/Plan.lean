import NotebookPages.Command.Batch
import NotebookPages.Proofs.Page.Destination

/-! The plan of a batch. An item is a duplicate exactly if an item before it has the same destination. -/

namespace NotebookPages

namespace Path

variable {p q r : Path}

theorem same_iff : same p q = true ↔ components p = components q := beq_iff_eq

theorem same_refl (p : Path) : same p p = true := same_iff.mpr rfl

theorem same_comm (p q : Path) : same p q = same q p := by
  rw [Bool.eq_iff_iff, same_iff, same_iff, eq_comm]

theorem same_trans (first : same p q = true) (second : same q r = true) : same p r = true :=
  same_iff.mpr ((same_iff.mp first).trans (same_iff.mp second))

theorem same_congr (alike : same p q = true) : same p = same q := by
  funext r
  rw [same, same, same_iff.mp alike]

end Path

namespace Command.Batch

variable {b : Batch} {claimed : List Path} {sources : List Path} {i : Item}

/-- The destination is a name that a page can have, within a directory. -/
def Placed (i : Item) : Prop := ∃ base n, i.destination = Path.join base n ∧ Page.Named n

theorem destination_planFrom (member : i ∈ b.planFrom claimed sources) :
    i.destination = Page.outputPath b.options.dialect b.outputDir i.source := by
  induction sources generalizing claimed with
  | nil => cases member
  | cons source sources ih =>
    rcases List.mem_cons.mp member with rfl | member
    · rfl
    · exact ih member

/-- The directory of the page of a source. -/
def directory (b : Batch) (source : Path) : Path := (b.outputDir.or (Path.parent? source)).getD []

theorem destination_shape (planned : i.destination = Page.outputPath b.options.dialect b.outputDir i.source) :
    ∃ n, Page.Named n ∧ i.destination = Path.join (b.directory i.source) n := by
  rw [planned]
  exact Page.outputPath_named b.options.dialect b.outputDir i.source

theorem placed_planFrom (member : i ∈ b.planFrom claimed sources) : Placed i := by
  obtain ⟨n, named, shape⟩ := destination_shape (destination_planFrom member)
  exact ⟨_, n, shape, named⟩

theorem duplicate_of_claimed (member : i ∈ b.planFrom claimed sources) (taken : claimed.any (Path.same i.destination) = true) :
    i.duplicate = true := by
  induction sources generalizing claimed with
  | nil => cases member
  | cons source sources ih =>
    rcases List.mem_cons.mp member with rfl | member
    · exact taken
    · exact ih member (by rw [List.any_cons, taken, Bool.or_true])

/-- No two items of one destination are both treated. -/
theorem pairwise_planFrom (b : Batch) (claimed sources : List Path) :
    (b.planFrom claimed sources).Pairwise fun i j => Path.same i.destination j.destination = true → j.duplicate = true := by
  induction sources generalizing claimed with
  | nil => exact .nil
  | cons source sources ih =>
    refine .cons (fun j member same => duplicate_of_claimed member ?_) (ih _)
    rw [List.any_cons, Path.same_comm, same, Bool.true_or]

end Command.Batch
end NotebookPages
