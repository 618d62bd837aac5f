import NotebookPages.Page.Convert
import NotebookPages.Proofs.Markup.FencedBlocks

/-! The body of a page by blocks: which blocks a cell is shown as, and the lines they take up in the page. -/

namespace NotebookPages

/-- The image types among the outputs of a cell, each of which is named in a note. -/
def Output.images : Output → List Text
  | .executeResult _ data => data.mimes.filter Page.isImage
  | .displayData data => data.mimes.filter Page.isImage
  | _ => []

def Cell.images : Cell → List Text
  | .code _ _ _ outputs => outputs.flatMap Output.images
  | _ => []

namespace Page

variable {o : PageOptions} {n : Notebook} {d : Dialect} {b info text mime : Text} {images known : List Text} {c : Cell} {out : Output}

def blocksOf (o : PageOptions) (n : Notebook) (c : Cell) : List Text := (renderCell o (language o n.metadata) c).blocks

def blocks (o : PageOptions) (n : Notebook) : List Text := n.cells.flatMap (blocksOf o n)

theorem Blocks.blocks_append (a b : Blocks) : (a ++ b).blocks = a.blocks ++ b.blocks := rfl

theorem Blocks.blocks_concat (parts : List Blocks) : (Blocks.concat parts).blocks = parts.flatMap Blocks.blocks := by
  induction parts with
  | nil => rfl
  | cons part parts ih => rw [List.flatMap_cons, ← ih]; rfl

theorem renderBody_fst (o : PageOptions) (n : Notebook) : (renderBody o n).1 = layOut (Page.blocks o n) := by
  rw [renderBody, Page.blocks]
  simp only [Blocks.blocks_concat, List.flatMap_map]
  rfl

/-- A block of code, or the note for an image. -/
inductive Verbatim (d : Dialect) (images known : List Text) : Text → Prop where
  | block {info : Text} (named : info ∈ known) (content : Text) : Verbatim d images known (Fence.block info content)
  | note {mime : Text} (shown : mime ∈ images) : Verbatim d images known (imagePlaceholder d mime)

theorem Verbatim.mono {others more : List Text} (verbatim : Verbatim d images known b) (shown : images ⊆ others) (named : known ⊆ more) :
    Verbatim d others more b := by
  cases verbatim with
  | block listed content => exact .block (named listed) content
  | note inside => exact .note (shown inside)

theorem verbatim_blockUnlessBlank (named : info ∈ known) (member : b ∈ blockUnlessBlank info text) :
    Verbatim d images known b := by
  unfold blockUnlessBlank at member
  split at member
  · cases member
  · rw [List.mem_singleton.mp member]
    exact .block named text

def outputInfos : List Text := [[], "python", "html"]

theorem not_mem_outputInfos : ∀ info ∈ outputInfos, '`' ∉ info := by
  unfold outputInfos
  decide

theorem verbatim_ofBundle {data : MimeBundle} (member : b ∈ ofBundle d data) :
    Verbatim d (data.mimes.filter isImage) outputInfos b := by
  rw [ofBundle, List.mem_append, List.mem_append] at member
  rcases member with (member | member) | member
  · exact verbatim_blockUnlessBlank (by simp [outputInfos]) member
  · obtain ⟨mime, shown, rfl⟩ := List.mem_map.mp member
    exact .note shown
  · exact verbatim_blockUnlessBlank (by simp [outputInfos]) member

theorem verbatim_ofOutput (member : b ∈ ofOutput d out) : Verbatim d out.images outputInfos b := by
  cases out with
  | stream name text => exact verbatim_blockUnlessBlank (by simp [outputInfos]) member
  | executeResult count data => exact verbatim_ofBundle member
  | displayData data => exact verbatim_ofBundle member
  | error name value traceback =>
    rw [List.mem_singleton.mp member]
    exact .block (by simp [outputInfos]) _
  | unknown => cases member

/-- What the cells of a page carry as info strings. -/
def infos (o : PageOptions) (n : Notebook) : List Text := language o n.metadata :: outputInfos

theorem blocksOf_code (id : Option Text) (source : Text) (count : Option Int) (outputs : List Output) :
    blocksOf o n (.code id source count outputs) =
      blockUnlessBlank (language o n.metadata) source ++ outputs.flatMap (ofOutput o.dialect) := by
  rw [blocksOf, renderCell]
  split
  next none =>
    obtain ⟨blank, empty⟩ := none
    rw [List.isEmpty_iff.mp empty]
    simp [emptyCell, blockUnlessBlank, blank]
  next =>
    rw [Blocks.blocks_append, Blocks.blocks_concat, List.flatMap_map]
    rfl

theorem note_mem_blocksOf (shown : mime ∈ c.images) : imagePlaceholder o.dialect mime ∈ blocksOf o n c := by
  have noted : ∀ data : MimeBundle, mime ∈ data.mimes.filter isImage → imagePlaceholder o.dialect mime ∈ ofBundle o.dialect data :=
    fun data inside => List.mem_append_left _ (List.mem_append_right _ (List.mem_map_of_mem inside))
  cases c with
  | markdown | raw | unsupported => cases shown
  | code id source count outputs =>
    obtain ⟨out, member, shown⟩ := List.mem_flatMap.mp shown
    rw [blocksOf_code]
    refine List.mem_append_right _ (List.mem_flatMap_of_mem member ?_)
    cases out with
    | stream | error | unknown => cases shown
    | executeResult count data => exact noted data shown
    | displayData data => exact noted data shown

theorem blocksOf_markdown (id : Option Text) (source : Text) : blocksOf o n (.markdown id source) =
    if Text.allBlank source then [] else [trimProse (Markup.sanitize o.rules source)] := by
  rw [blocksOf, renderCell]
  split <;> rfl

/-- Every block that is not prose is a block of code or a note. -/
theorem verbatim_of_mem (member : b ∈ blocksOf o n c) (other : ∀ id source, c ≠ .markdown id source) :
    Verbatim o.dialect c.images (infos o n) b := by
  cases c with
  | markdown id source => exact absurd rfl (other id source)
  | code id source count outputs =>
    rw [blocksOf_code, List.mem_append] at member
    rcases member with member | member
    · exact verbatim_blockUnlessBlank (by simp [infos]) member
    · obtain ⟨out, inside, member⟩ := List.mem_flatMap.mp member
      exact (verbatim_ofOutput member).mono (fun mime shown => List.mem_flatMap_of_mem inside shown) (by simp [infos])
  | raw id source =>
    rw [blocksOf, renderCell] at member
    split at member
    · cases member
    · rw [List.mem_singleton.mp member]
      exact .block (by simp [infos, outputInfos]) source
  | unsupported kind => cases member

end Page
end NotebookPages
