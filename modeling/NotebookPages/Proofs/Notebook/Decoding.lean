import Mathlib.Data.List.Forall2
import NotebookPages.Proofs.Page.Blocks
import NotebookPages.Proofs.Results

/-! What a notebook keeps of its file. Every entry of the cell list becomes a cell in its place, and every output that a code cell lists
becomes an output with the same payload types; nothing is left out. -/

namespace NotebookPages

namespace Cell

def prose? : Cell → Option Text
  | markdown _ source => some source
  | _ => none

def outputs : Cell → List Output
  | code _ _ _ outputs => outputs
  | _ => []

end Cell

namespace Json

variable {α : Type} {read? : Json → Option α} {value : Option Json} {x : α}

/-- The kind that a cell of a file says it is. -/
def cellKind? (cell : Json) : Option Text := (cell.get? "cell_type").bind string?

/-- The source of a Markdown cell of a file. -/
def prose? (cell : Json) : Option Text :=
  if cell.cellKind? = some ("markdown" : Text) then some (((cell.get? "source").bind fragments?).getD []) else none

/-- The outputs that a code cell of a file lists. -/
def listedOutputs (cell : Json) : List Json :=
  if cell.cellKind? = some ("code" : Text) then ((cell.get? "outputs").bind items?).getD [] else []

/-- The tag of an output of a file and its fields, which are named or stand in order. -/
def outputParts? : Json → Option (Text × (Text → Option Json))
  | object members => ((members.lookup ("output_type" : Text)).bind string?).map fun tag => (tag, fun key => members.lookup key)
  | array (string tag :: values) => some (tag, fun key => ((Notebook.outputFields tag).zip values).lookup key)
  | _ => none

/-- The image types among the payloads of a result or of data shown. -/
def imagesOf (tag : Text) (field : Text → Option Json) : List Text :=
  if tag = ("execute_result" : Text) ∨ tag = ("display_data" : Text) then
    ((((field "data").bind members?).getD []).map Prod.fst).filter Page.isImage
  else []

def imageTypes (output : Json) : List Text := (output.outputParts?.map fun parts => imagesOf parts.1 parts.2).getD []

/-- A field that has a value was read from it; a missing one and `null` are no value. -/
theorem optional?_eq_some {found : Option α} (read : optional? read? value = some found) (null : read? .null = none) :
    found = value.bind read? := by
  unfold optional? at read
  cases value with
  | none =>
    obtain rfl := Option.some.inj read
    rfl
  | some v =>
    cases v
    case null =>
      obtain rfl := Option.some.inj read
      exact null.symm
    all_goals
      obtain ⟨x, here, rfl⟩ := Option.map_eq_some_iff.mp read
      exact here.symm

theorem multiline?_eq_some {t : Text} (read : Notebook.multiline? value = some t) : t = (value.bind fragments?).getD [] := by
  obtain ⟨found, here, rfl⟩ := Option.map_eq_some_iff.mp read
  rw [optional?_eq_some here rfl]

theorem mimes_of_bundle? {b : MimeBundle} (read : Notebook.bundle? value = some b) :
    b.mimes = ((value.bind members?).getD []).map Prod.fst := by
  obtain ⟨found, here, rfl⟩ := Option.map_eq_some_iff.mp read
  rw [optional?_eq_some here rfl, MimeBundle.mimes, List.map_map]
  rfl

end Json

namespace Notebook

open Json (optional? defaulted?)

variable {item : Json} {items : List Json} {c : Cell} {cells : List Cell} {out : Output} {outs : List Output} {index : Nat} {n : Notebook}

theorem images_output? {tag : Text} {field : Text → Option Json} (read : output? tag field = some out) :
    out.images = Json.imagesOf tag field := by
  have shown {b : MimeBundle} (bundle : bundle? (field "data") = some b)
      (tagged : tag = ("execute_result" : Text) ∨ tag = ("display_data" : Text)) : b.mimes.filter Page.isImage = Json.imagesOf tag field := by
    rw [Json.imagesOf, if_pos tagged, Json.mimes_of_bundle? bundle]
  have hidden (others : tag ≠ ("execute_result" : Text) ∧ tag ≠ ("display_data" : Text)) : [] = Json.imagesOf tag field := by
    rw [Json.imagesOf, if_neg (by simpa using others)]
  unfold output? at read
  simp only at read
  split at read
  next stream =>
    obtain ⟨name, -, read⟩ := Option.bind_eq_some_iff.mp read
    obtain ⟨text, -, read⟩ := Option.bind_eq_some_iff.mp read
    obtain rfl := Option.some.inj read
    exact hidden (by rw [stream]; decide)
  split at read
  next result =>
    obtain ⟨count, -, read⟩ := Option.bind_eq_some_iff.mp read
    obtain ⟨data, bundle, read⟩ := Option.bind_eq_some_iff.mp read
    obtain rfl := Option.some.inj read
    exact shown bundle (Or.inl result)
  next noResult =>
    split at read
    next display =>
      obtain ⟨data, bundle, read⟩ := Option.bind_eq_some_iff.mp read
      obtain rfl := Option.some.inj read
      exact shown bundle (Or.inr display)
    next noDisplay =>
      split at read
      next =>
        obtain ⟨name, -, read⟩ := Option.bind_eq_some_iff.mp read
        obtain ⟨value, -, read⟩ := Option.bind_eq_some_iff.mp read
        obtain ⟨traceback, -, read⟩ := Option.bind_eq_some_iff.mp read
        obtain rfl := Option.some.inj read
        exact hidden ⟨noResult, noDisplay⟩
      next =>
        obtain rfl := Option.some.inj read
        exact hidden ⟨noResult, noDisplay⟩

theorem images_decodeOutput? (read : decodeOutput? item = some out) : out.images = item.imageTypes := by
  unfold decodeOutput? at read
  split at read
  next members =>
    split at read
    next tag tagged =>
      rw [images_output? read, Json.imageTypes, Json.outputParts?, tagged]
      rfl
    next => cases read
  next tag values =>
    simp only at read
    split at read
    next => cases read
    next => exact images_output? read
  next => cases read

theorem forall₂_of_mapM {f : Json → Option Output} (read : items.mapM f = some outs) :
    List.Forall₂ (fun item out => f item = some out) items outs := by
  induction items generalizing outs with
  | nil =>
    obtain rfl := Option.some.inj read
    exact .nil
  | cons item items ih =>
    rw [List.mapM_cons] at read
    obtain ⟨out, first, read⟩ := Option.bind_eq_some_iff.mp read
    obtain ⟨rest, later, read⟩ := Option.bind_eq_some_iff.mp read
    obtain rfl := Option.some.inj read
    exact .cons first (ih later)

/-- The cell keeps the prose and the outputs of an entry of the file. -/
structure Kept (item : Json) (c : Cell) : Prop where
  prose : c.prose? = item.prose?
  outputs : List.Forall₂ (fun output out => decodeOutput? output = some out) item.listedOutputs c.outputs

theorem kept_of_other {kind : Text} (named : item.cellKind? = some kind) (noMarkdown : kind ≠ ("markdown" : Text))
    (noCode : kind ≠ ("code" : Text)) (prose : c.prose? = none) (outputs : c.outputs = []) : Kept item c := by
  constructor
  · rw [prose, Json.prose?, if_neg (by rw [named, Option.some.injEq]; exact noMarkdown)]
  · rw [outputs, Json.listedOutputs, if_neg (by rw [named, Option.some.injEq]; exact noCode)]
    exact .nil

theorem kept_of_cell? {kind : Text} (named : item.cellKind? = some kind) (read : cell? kind item = some c) : Kept item c := by
  unfold cell? at read
  simp only at read
  split at read
  next markdown =>
    obtain ⟨id, -, read⟩ := Option.bind_eq_some_iff.mp read
    obtain ⟨source, text, read⟩ := Option.bind_eq_some_iff.mp read
    obtain rfl := Option.some.inj read
    rw [markdown] at named
    constructor
    · rw [Json.prose?, if_pos named, Json.multiline?_eq_some text]
      rfl
    · rw [Json.listedOutputs, if_neg (by rw [named]; decide)]
      exact .nil
  next noMarkdown =>
    split at read
    next raw =>
      obtain ⟨id, -, read⟩ := Option.bind_eq_some_iff.mp read
      obtain ⟨source, -, read⟩ := Option.bind_eq_some_iff.mp read
      obtain rfl := Option.some.inj read
      exact kept_of_other named noMarkdown (by rw [raw]; decide) rfl rfl
    next =>
      split at read
      next code =>
        obtain ⟨id, -, read⟩ := Option.bind_eq_some_iff.mp read
        obtain ⟨source, -, read⟩ := Option.bind_eq_some_iff.mp read
        obtain ⟨count, -, read⟩ := Option.bind_eq_some_iff.mp read
        obtain ⟨outs, listed, read⟩ := Option.bind_eq_some_iff.mp read
        obtain rfl := Option.some.inj read
        rw [code] at named
        constructor
        · rw [Json.prose?, if_neg (by rw [named]; decide)]
          rfl
        · rw [Json.listedOutputs, if_pos named]
          cases given : item.get? "outputs" with
          | none =>
            rw [given] at listed
            obtain rfl := Option.some.inj listed
            exact .nil
          | some v =>
            rw [given] at listed
            obtain ⟨items, array, each⟩ := Option.bind_eq_some_iff.mp listed
            rw [Option.bind_some, array]
            exact forall₂_of_mapM each
      next noCode =>
        obtain rfl := Option.some.inj read
        exact kept_of_other named noMarkdown noCode rfl rfl

theorem kept_of_decodeCell (read : decodeCell item = .ok c) : Kept item c := by
  unfold decodeCell at read
  split at read
  next kind named =>
    split at read
    next cell found =>
      obtain rfl := Except.ok.inj read
      refine kept_of_cell? ?_ found
      rw [Json.cellKind?, named]
      rfl
    next => cases read
  next => cases read
  next => cases read

theorem forall₂_of_decodeCells (read : decodeCells index items = .ok cells) : List.Forall₂ Kept items cells := by
  induction items generalizing index cells with
  | nil =>
    obtain rfl := Except.ok.inj read
    exact .nil
  | cons item items ih =>
    rw [decodeCells] at read
    split at read
    next => cases read
    next c first =>
      obtain ⟨rest, later, rfl⟩ := Except.map_eq_ok_iff.mp read
      exact .cons (kept_of_decodeCell first) (ih later)

theorem cells_of_ofFields? {fields : List (Text × Json)} {container : Container} (read : Container.ofFields? fields = some container) :
    container.cells = Json.present? (fields.lookup ("cells" : Text)) := by
  obtain ⟨major, -, read⟩ := Option.bind_eq_some_iff.mp read
  obtain ⟨minor, -, read⟩ := Option.bind_eq_some_iff.mp read
  obtain ⟨metadata, -, read⟩ := Option.bind_eq_some_iff.mp read
  obtain rfl := Option.some.inj read
  rfl

theorem forall₂_of_notebook {container : Container} (read : container.notebook = .ok n) :
    ∃ items, container.cells = some (.array items) ∧ List.Forall₂ Kept items n.cells := by
  unfold Container.notebook at read
  split at read
  next => cases read
  next =>
    split at read
    next => cases read
    next items listed =>
      obtain ⟨cells, decoded, rfl⟩ := Except.map_eq_ok_iff.mp read
      exact ⟨items, listed, forall₂_of_decodeCells decoded⟩
    next => cases read

/-- A notebook that was read has a cell for every entry of the cell list of its file. -/
theorem exists_items_of_decode {bytes : Bytes} (read : decode bytes = .ok n) : ∃ fields items,
    readContainer? bytes = some fields ∧ fields.lookup ("cells" : Text) = some (.array items) ∧ List.Forall₂ Kept items n.cells := by
  unfold decode at read
  split at read
  next fields listed =>
    unfold ofFields at read
    split at read
    next container found =>
      obtain ⟨items, array, kept⟩ := forall₂_of_notebook read
      rw [cells_of_ofFields? found] at array
      refine ⟨fields, items, listed, ?_, kept⟩
      unfold Json.present? at array
      split at array
      next => cases array
      next => exact array
    next => cases read
  next => cases read

theorem map_eq_of_forall₂ {α β γ : Type} {R : α → β → Prop} {xs : List α} {ys : List β} {f : α → γ} {g : β → γ}
    (same : List.Forall₂ R xs ys) (each : ∀ x y, R x y → g y = f x) : ys.map g = xs.map f := by
  induction same with
  | nil => rfl
  | cons here _ ih => rw [List.map_cons, List.map_cons, each _ _ here, ih]

theorem prose_of_kept (kept : List.Forall₂ Kept items cells) : cells.filterMap Cell.prose? = items.filterMap Json.prose? := by
  have each := map_eq_of_forall₂ kept fun _ _ same => same.prose
  have whole := congrArg (List.filterMap id) each
  rw [List.filterMap_map, List.filterMap_map] at whole
  exact whole

theorem outputs_of_kept (kept : List.Forall₂ Kept items cells) :
    List.Forall₂ (fun output out => decodeOutput? output = some out) (items.flatMap Json.listedOutputs) (cells.flatMap Cell.outputs) :=
  List.rel_flatMap kept fun _ _ same => same.outputs

theorem images_of_kept (kept : List.Forall₂ Kept items cells) :
    (cells.flatMap Cell.outputs).flatMap Output.images = (items.flatMap Json.listedOutputs).flatMap Json.imageTypes := by
  have each := map_eq_of_forall₂ (outputs_of_kept kept) (f := Json.imageTypes) (g := Output.images) fun _ _ read => images_decodeOutput? read
  exact congrArg List.flatten each

end Notebook
end NotebookPages
