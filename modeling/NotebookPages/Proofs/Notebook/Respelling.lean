import Mathlib.Data.List.Forall2
import NotebookPages.Notebook.Decode

/-! The two ways of writing a text in a notebook file, as one string or as a list of fragments. Where a source, the text of a stream
or a payload is written in the other way the same notebook is read, or the file is refused for the same fault. -/

namespace NotebookPages

namespace Json

/-- The value as it is, or a text that is written in fragments instead. -/
inductive Respelled : Json → Json → Prop
  | kept (v : Json) : Respelled v v
  | fragmented (parts : List Text) : Respelled (string parts.flatten) (array (parts.map string))

/-- Members with the same keys in the same order, whose values are related as their key says. -/
def Matched (R : Text → Json → Json → Prop) : List (Text × Json) → List (Text × Json) → Prop :=
  List.Forall₂ fun m m' => m.1 = m'.1 ∧ R m.1 m.2 m'.2

/-- Objects that match, or one and the same value. -/
inductive Members (R : Text → Json → Json → Prop) : Json → Json → Prop
  | kept (v : Json) : Members R v v
  | matched {ms ms' : List (Text × Json)} (matched : Matched R ms ms') : Members R (object ms) (object ms')

/-- Arrays whose items are related in turn, or one and the same value. -/
inductive Items (R : Json → Json → Prop) : Json → Json → Prop
  | kept (v : Json) : Items R v v
  | each {items items' : List Json} (each : List.Forall₂ R items items') : Items R (array items) (array items')

/-- How the fields of an output may differ: the text of a stream and the payloads of a bundle. -/
def OutputField (key : Text) : Json → Json → Prop :=
  if key = ("text" : Text) then Respelled
  else if key = ("data" : Text) then Members fun _ => Respelled
  else Eq

/-- The fields of an output are named, or stand in the order that its tag tells. -/
inductive OutputRespelled : Json → Json → Prop
  | named {output output' : Json} (fields : Members OutputField output output') : OutputRespelled output output'
  | listed {tag : Text} {values values' : List Json} (count : values.length = values'.length)
      (fields : Matched OutputField ((Notebook.outputFields tag).zip values) ((Notebook.outputFields tag).zip values')) :
      OutputRespelled (array (string tag :: values)) (array (string tag :: values'))

/-- How the members of a cell may differ: its source and its outputs. -/
def CellField (key : Text) : Json → Json → Prop :=
  if key = ("source" : Text) then Respelled
  else if key = ("outputs" : Text) then Items OutputRespelled
  else Eq

/-- How the fields of a container may differ: the cells among each other. -/
def ContainerField (key : Text) : Json → Json → Prop :=
  if key = ("cells" : Text) then Items (Members CellField) else Eq

variable {R : Text → Json → Json → Prop} {key : Text} {v v' : Json} {ms ms' : List (Text × Json)} {found found' : Option Json}

theorem rel_lookup (matched : Matched R ms ms') (key : Text) : Option.Rel (R key) (ms.lookup key) (ms'.lookup key) := by
  induction matched with
  | nil => exact .none
  | @cons m m' ms ms' same _ ih =>
    obtain ⟨k, v⟩ := m
    obtain ⟨k', v'⟩ := m'
    obtain ⟨rfl, related⟩ := same
    rw [List.lookup_cons, List.lookup_cons]
    by_cases here : key = k
    · subst here
      rw [beq_self_eq_true]
      exact .some related
    · rw [beq_false_of_ne here]
      exact ih

theorem eq_of_rel (same : Option.Rel Eq found found') : found = found' := by
  cases same with
  | some same => exact congrArg some same
  | none => rfl

theorem rel_get? (members : Members R v v') (kept : ∀ v, R key v v) : Option.Rel (R key) (v.get? key) (v'.get? key) := by
  cases members with
  | kept =>
    cases v.get? key with
    | none => exact .none
    | some found => exact .some (kept found)
  | matched matched => exact rel_lookup matched key

theorem strings?_map_string (parts : List Text) : strings? (parts.map string) = some parts := by
  induction parts with
  | nil => rfl
  | cons part parts ih =>
    rw [strings?] at ih
    rw [List.map_cons, strings?, List.mapM_cons, ih]
    rfl

theorem Respelled.fragments? (respelled : Respelled v v') : v.fragments? = v'.fragments? := by
  cases respelled with
  | kept => rfl
  | fragmented parts =>
    rw [Json.fragments?, Json.fragments?, strings?_map_string]
    rfl

end Json

namespace Notebook

open Json (Respelled Matched Members Items OutputField OutputRespelled CellField ContainerField rel_lookup rel_get? eq_of_rel)

variable {v v' cell cell' : Json} {found found' : Option Json} {field other : Text → Option Json} {items items' : List Json}
  {fields others ms ms' : List (Text × Json)} {tag : Text}

theorem payload_of_respelled (respelled : Respelled v v') : payload v = payload v' := by
  cases respelled with
  | kept => rfl
  | fragmented parts =>
    have same := (Respelled.fragmented parts).fragments?
    rw [payload, payload, ← same]
    rfl

theorem multiline?_of_rel (respelled : Option.Rel Respelled found found') : multiline? found = multiline? found' := by
  cases respelled with
  | none => rfl
  | some respelled =>
    cases respelled with
    | kept => rfl
    | fragmented parts =>
      have same := (Respelled.fragmented parts).fragments?
      simp only [multiline?, Json.optional?, Json.present?, same]

theorem payloads_of_matched (matched : Matched (fun _ => Respelled) ms ms') :
    (ms.map fun (mime, value) => (mime, payload value)) = ms'.map fun (mime, value) => (mime, payload value) := by
  induction matched with
  | nil => rfl
  | @cons m m' ms ms' same _ ih =>
    obtain ⟨mime, value⟩ := m
    obtain ⟨mime', value'⟩ := m'
    obtain ⟨rfl, respelled⟩ := same
    have payloads : payload value = payload value' := payload_of_respelled respelled
    simp only [List.map_cons, payloads, ih]

theorem bundle?_of_rel (related : Option.Rel (Members fun _ => Respelled) found found') : bundle? found = bundle? found' := by
  cases related with
  | none => rfl
  | some related =>
    cases related with
    | kept => rfl
    | @matched ms ms' matched =>
      have payloads := payloads_of_matched matched
      exact congrArg (fun items => some (MimeBundle.mk items)) payloads

/-- An output is told by its fields. -/
theorem output?_of_rel (tag : Text) (related : ∀ key, Option.Rel (OutputField key) (field key) (other key)) :
    output? tag field = output? tag other := by
  have text : multiline? (field "text") = multiline? (other "text") := multiline?_of_rel (related "text")
  have data : bundle? (field "data") = bundle? (other "data") := bundle?_of_rel (related "data")
  have name : field "name" = other "name" := eq_of_rel (related "name")
  have count : field "execution_count" = other "execution_count" := eq_of_rel (related "execution_count")
  have exception : field "ename" = other "ename" := eq_of_rel (related "ename")
  have value : field "evalue" = other "evalue" := eq_of_rel (related "evalue")
  have traceback : field "traceback" = other "traceback" := eq_of_rel (related "traceback")
  simp only [output?, text, data, name, count, exception, value, traceback]

theorem decodeOutput?_of_respelled (respelled : OutputRespelled v v') : decodeOutput? v = decodeOutput? v' := by
  cases respelled with
  | named members =>
    cases members with
    | kept => rfl
    | matched matched =>
      have tagged := eq_of_rel (rel_lookup matched "output_type")
      have same (tag : Text) := output?_of_rel tag (rel_lookup matched)
      simp only [decodeOutput?, tagged, same]
  | @listed tag values values' count matched =>
    have same := output?_of_rel tag (rel_lookup matched)
    simp only [decodeOutput?, count, same]

theorem mapM_of_forall₂ (each : List.Forall₂ OutputRespelled items items') : items.mapM decodeOutput? = items'.mapM decodeOutput? := by
  induction each with
  | nil => rfl
  | cons first _ ih => rw [List.mapM_cons, List.mapM_cons, decodeOutput?_of_respelled first, ih]

theorem outputs_of_rel (related : Option.Rel (Items OutputRespelled) found found') :
    Json.defaulted? (fun v => v.items?.bind (·.mapM decodeOutput?)) [] found =
      Json.defaulted? (fun v => v.items?.bind (·.mapM decodeOutput?)) [] found' := by
  cases related with
  | none => rfl
  | some related =>
    cases related with
    | kept => rfl
    | each each => exact mapM_of_forall₂ each

theorem cellField_kept (key : Text) (v : Json) : CellField key v v := by
  unfold CellField
  split
  · exact .kept v
  · split
    · exact .kept v
    · rfl

theorem decodeCell_of_members (members : Members CellField cell cell') : decodeCell cell = decodeCell cell' := by
  have related (key : Text) : Option.Rel (CellField key) (cell.get? key) (cell'.get? key) := rel_get? members (cellField_kept key)
  have kind : cell.get? "cell_type" = cell'.get? "cell_type" := eq_of_rel (related "cell_type")
  have id : cell.get? "id" = cell'.get? "id" := eq_of_rel (related "id")
  have count : cell.get? "execution_count" = cell'.get? "execution_count" := eq_of_rel (related "execution_count")
  have source : multiline? (cell.get? "source") = multiline? (cell'.get? "source") := multiline?_of_rel (related "source")
  have outputs := outputs_of_rel (related "outputs")
  have shape : cell.isObject = cell'.isObject := by cases members <;> rfl
  simp only [decodeCell, cell?, kind, id, count, source, outputs, shape]

/-- A cell list is read up to the first fault in it. -/
theorem decodeCells_of_forall₂ (each : List.Forall₂ (Members CellField) items items') (index : Nat) :
    decodeCells index items = decodeCells index items' := by
  induction each generalizing index with
  | nil => rfl
  | cons first _ ih => rw [decodeCells, decodeCells, decodeCell_of_members first, ih]

/-- The notebook of a container hangs on the cells that are read. -/
theorem Container.notebook_of_rel (c : Container) (related : Option.Rel (Items (Members CellField)) found found') :
    ({ c with cells := Json.present? found } : Container).notebook = ({ c with cells := Json.present? found' } : Container).notebook := by
  cases related with
  | none => rfl
  | some related =>
    cases related with
    | kept => rfl
    | each each =>
      have same := decodeCells_of_forall₂ each 0
      simp only [Container.notebook, Json.present?, same]

/-- Containers that differ in the spelling of texts alone are read as the same notebook, or refused for the same fault, and so are the
files that hold them. -/
theorem decode_eq_of_respelled (respelled : Matched ContainerField fields others) : ofFields fields = ofFields others ∧
    ∀ {s s' : Bytes}, readContainer? s = some fields → readContainer? s' = some others → decode s = decode s' := by
  have related (key : Text) : Option.Rel (ContainerField key) (fields.lookup key) (others.lookup key) := rel_lookup respelled key
  have same : ofFields fields = ofFields others := by
    have major : fields.lookup ("nbformat" : Text) = others.lookup ("nbformat" : Text) := eq_of_rel (related "nbformat")
    have minor : fields.lookup ("nbformat_minor" : Text) = others.lookup ("nbformat_minor" : Text) :=
      eq_of_rel (related "nbformat_minor")
    have metadata : fields.lookup ("metadata" : Text) = others.lookup ("metadata" : Text) := eq_of_rel (related "metadata")
    simp only [ofFields, Container.ofFields?, major, minor, metadata]
    cases Json.optional? Json.nat32? (others.lookup ("nbformat" : Text)) with
    | none => rfl
    | some major =>
      cases Json.optional? Json.nat32? (others.lookup ("nbformat_minor" : Text)) with
      | none => rfl
      | some minor =>
        cases Json.optional? Json.members? (others.lookup ("metadata" : Text)) with
        | none => rfl
        | some metadata =>
          exact Container.notebook_of_rel ⟨major.getD 4, minor.getD 0, metadata.getD [], none⟩ (related "cells")
  refine ⟨same, ?_⟩
  intro s s' read read'
  simp only [decode, read, read', same]

/-- A code cell with its source, the text that it printed and the plain text of what it shows, the latter in an output whose fields
stand in order. -/
def sheet (source printed shown : Json) : List (Text × Json) :=
  [("cells", .array [.object [("cell_type", .string "code"), ("outputs", .array [
    .object [("output_type", .string "stream"), ("text", printed)],
    .array [.string "display_data", .object [("text/plain", shown)]]]), ("source", source)]])]

def sheetText (source printed shown : Text) : Bytes :=
  Text.encode ("\x7b\"cells\":[\x7b\"cell_type\":\"code\",\"outputs\":[\x7b\"output_type\":\"stream\",\"text\":" ++ printed ++
    "\x7d,[\"display_data\",\x7b\"text/plain\":" ++ shown ++ "\x7d]],\"source\":" ++ source ++ "\x7d]\x7d")

/-- A sheet whose texts are strings, and one with fragments in their place: of an empty text there are none. -/
theorem decode_eq_of_respelled_sheet :
    Matched ContainerField (sheet (.string "a\nb") (.string []) (.string "1"))
      (sheet (.array [.string "a\n", .string [], .string "b"]) (.array []) (.array [.string "1"])) ∧
    ofFields (sheet (.string "a\nb") (.string []) (.string "1")) =
      ofFields (sheet (.array [.string "a\n", .string [], .string "b"]) (.array []) (.array [.string "1"])) ∧
    decode (sheetText "\"a\\nb\"" "\"\"" "\"1\"") = decode (sheetText "[\"a\\n\",\"\",\"b\"]" "[]" "[\"1\"]") := by
  have source : Respelled (.string "a\nb") (.array [.string "a\n", .string [], .string "b"]) := .fragmented ["a\n", [], "b"]
  have printed : Respelled (.string []) (.array []) := .fragmented []
  have shown : Respelled (.string "1") (.array [.string "1"]) := .fragmented ["1"]
  have outputs : Items OutputRespelled
      (.array [.object [("output_type", .string "stream"), ("text", .string [])],
        .array [.string "display_data", .object [("text/plain", .string "1")]]])
      (.array [.object [("output_type", .string "stream"), ("text", .array [])],
        .array [.string "display_data", .object [("text/plain", .array [.string "1"])]]]) :=
    .each (.cons (.named (.matched (.cons ⟨rfl, rfl⟩ (.cons ⟨rfl, printed⟩ .nil))))
      (.cons (.listed rfl (.cons ⟨rfl, .matched (.cons ⟨rfl, shown⟩ .nil)⟩ .nil)) .nil))
  have respelled : Matched ContainerField (sheet (.string "a\nb") (.string []) (.string "1"))
      (sheet (.array [.string "a\n", .string [], .string "b"]) (.array []) (.array [.string "1"])) :=
    .cons ⟨rfl, .each (.cons (.matched (.cons ⟨rfl, rfl⟩ (.cons ⟨rfl, outputs⟩ (.cons ⟨rfl, source⟩ .nil)))) .nil)⟩ .nil
  obtain ⟨same, read⟩ := decode_eq_of_respelled respelled
  exact ⟨respelled, same, read (by decide +kernel) (by decide +kernel)⟩

end Notebook
end NotebookPages
