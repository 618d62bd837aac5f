import NotebookPages.Json.Reader
import NotebookPages.Notebook.Basic

/-!
Reading a notebook from the bytes of its file. The container may be an object, of which unknown keys
are passed over, or an array of its fields in order; the same holds of outputs. A text may be
written as one string or as a list of fragments.
-/

namespace NotebookPages

inductive CellFault where
  | notObject
  | missingType
  | typeNotString
  | undecodable
  deriving DecidableEq, Repr

def CellFault.message : CellFault → Text
  | notObject => "not an object"
  | missingType => "missing `cell_type`"
  | typeNotString => "`cell_type` is not a string"
  | undecodable => "<decode error>"

inductive NotebookError where
  | undecodable
  | missingCells
  | cellsNotArray
  | cell (index : Nat) (fault : CellFault)
  | unsupportedVersion (major minor : Nat)
  deriving DecidableEq, Repr

namespace NotebookError

def malformed? : NotebookError → Option Text
  | undecodable => some "<decode error>"
  | missingCells => some "missing `cells` array"
  | cellsNotArray => some "`cells` is not an array"
  | cell index fault => some ("cell " ++ Text.ofNat index ++ ": " ++ fault.message)
  | unsupportedVersion .. => none

def message : NotebookError → Text
  | unsupportedVersion major minor =>
    "Unsupported notebook version: " ++ Text.ofNat major ++ "." ++ Text.ofNat minor
  | e => "Malformed notebook: " ++ e.malformed?.getD []

end NotebookError

namespace Json

/-- A missing value and `null` are no value. -/
def present? : Option Json → Option Json
  | some null => none
  | value => value

def optional? (read? : Json → Option α) (value : Option Json) : Option (Option α) :=
  match present? value with
  | none => some none
  | some v => (read? v).map some

/-- A value that takes a default when it is missing; `null` is no default. -/
def defaulted? (read? : Json → Option α) (standard : α) : Option Json → Option α
  | none => some standard
  | some v => read? v

def int64? : Json → Option Int
  | integer n => if n < Nat.pow 2 63 then some n else none
  | _ => none

def nat32? : Json → Option Nat
  | integer n => if 0 ≤ n ∧ n < Nat.pow 2 32 then some n.toNat else none
  | _ => none

def members? : Json → Option (List (Text × Json))
  | object members => some members
  | _ => none

def items? : Json → Option (List Json)
  | array items => some items
  | _ => none

/-- A string, or a list of strings that are its fragments. -/
def fragments? : Json → Option Text
  | string s => some s
  | array items => (strings? items).map List.flatten
  | _ => none

end Json

namespace Notebook

open Json (optional? defaulted? fragments?)

def multiline? (value : Option Json) : Option Text :=
  (optional? fragments? value).map (·.getD [])

/-- A payload that is no text stands as its own compact text. -/
def payload (value : Json) : Text := (fragments? value).getD value.compact

def bundle? (value : Option Json) : Option MimeBundle :=
  (optional? Json.members? value).map fun members =>
    ⟨(members.getD []).map fun (mime, value) => (mime, payload value)⟩

/-- The fields of an output by its tag, in the order in which an array lists them. -/
def outputFields (tag : Text) : List Text :=
  if tag = ("stream" : Text) then ["name", "text"]
  else if tag = ("execute_result" : Text) then ["execution_count", "data"]
  else if tag = ("display_data" : Text) then ["data"]
  else if tag = ("error" : Text) then ["ename", "evalue", "traceback"]
  else []

def output? (tag : Text) (field : Text → Option Json) : Option Output :=
  let text? (key : Text) : Option Text := defaulted? Json.string? [] (field key)
  if tag = ("stream" : Text) then do
    return .stream (← text? "name") (← multiline? (field "text"))
  else if tag = ("execute_result" : Text) then do
    return .executeResult (← optional? Json.int64? (field "execution_count"))
      (← bundle? (field "data"))
  else if tag = ("display_data" : Text) then do
    return .displayData (← bundle? (field "data"))
  else if tag = ("error" : Text) then do
    return .error (← text? "ename") (← text? "evalue")
      (← defaulted? (fun v => v.items?.bind Json.strings?) [] (field "traceback"))
  else some .unknown

def decodeOutput? : Json → Option Output
  | .object members =>
    match members.lookup ("output_type" : Text) with
    | some (.string tag) => output? tag fun key => members.lookup key
    | _ => none
  | .array (.string tag :: values) =>
    let fields := outputFields tag
    if fields.length < values.length then none
    else output? tag fun key => (fields.zip values).lookup key
  | _ => none

def cell? (kind : Text) (cell : Json) : Option Cell := do
  let id := optional? Json.string? (cell.get? "id")
  let source := multiline? (cell.get? "source")
  if kind = ("markdown" : Text) then return .markdown (← id) (← source)
  else if kind = ("raw" : Text) then return .raw (← id) (← source)
  else if kind = ("code" : Text) then
    return .code (← id) (← source) (← optional? Json.int64? (cell.get? "execution_count"))
      (← defaulted? (fun v => v.items?.bind (·.mapM decodeOutput?)) [] (cell.get? "outputs"))
  else return .unsupported kind

def decodeCell (cell : Json) : Except CellFault Cell :=
  match cell.get? "cell_type" with
  | some (.string kind) =>
    match cell? kind cell with
    | some c => .ok c
    | none => .error .undecodable
  | some _ => .error .typeNotString
  | none => .error (if cell.isObject then .missingType else .notObject)

def decodeCells (index : Nat) : List Json → Except NotebookError (List Cell)
  | [] => .ok []
  | cell :: rest =>
    match decodeCell cell with
    | .error fault => .error (.cell index fault)
    | .ok c => (decodeCells (index + 1) rest).map (c :: ·)

def decodeMetadata (members : List (Text × Json)) : Metadata :=
  let text? (key : Text) : Option Text :=
    match (members.lookup key).bind Json.string? with
    | some s => if Text.allBlank s then none else some (Text.trim s)
    | none => none
  let nested? (outer inner : Text) : Option Text :=
    ((members.lookup outer).bind (Json.get? inner)).bind Json.string?
  let author? : Json → Option Text
    | .string name => some name
    | other => (other.get? "name").bind Json.string?
  { title := text? "title"
    description := text? "description"
    language := (nested? "language_info" "name").or (nested? "kernelspec" "language")
    kernelName := nested? "kernelspec" "name"
    authors := (((members.lookup ("authors" : Text)).bind Json.items?).getD []).filterMap author?
    keys := members.map Prod.fst }

def containerFields : List Text := ["nbformat", "nbformat_minor", "metadata", "cells"]

def readMembers? : Nat → Bytes → Option (List (Text × Json) × Bytes)
  | 0, _ => none
  | fuel + 1, s =>
    match Json.skipSpace s with
    | 0x22 :: rest =>
      match Json.readString? rest with
      | none => none
      | some (key, rest) =>
        match Json.skipSpace rest with
        | 0x3A :: rest =>
          let known := containerFields.contains key
          let value? : Option (List (Text × Json) × Bytes) :=
            if known then
              (Json.readValue? (rest.length + 1) (Json.depthLimit - 1) rest).map fun (v, rest) =>
                ([(key, v)], rest)
            else (Json.afterValue? (rest.length + 1) rest).map fun rest => ([], rest)
          match value? with
          | none => none
          | some (here, rest) =>
            match Json.skipSpace rest with
            | 0x7D :: after => some (here, after)
            | 0x2C :: more => (readMembers? fuel more).map fun (ms, rest) => (here ++ ms, rest)
            | _ => none
        | _ => none
    | _ => none

/-- The fields of the container, each at most once. -/
def readContainer? (s : Bytes) : Option (List (Text × Json)) :=
  match Json.skipSpace s with
  | 0x7B :: rest => do
    let (members, rest) ← match Json.skipSpace rest with
      | 0x7D :: after => some ([], after)
      | body => readMembers? (body.length + 1) body
    if (Json.skipSpace rest).isEmpty && (members.map Prod.fst).Nodup then return members else none
  | 0x5B :: _ =>
    match Json.read? s with
    | some (.array items) =>
      if containerFields.length < items.length then none else some (containerFields.zip items)
    | _ => none
  | _ => none

structure Container where
  major : Nat
  minor : Nat
  metadata : List (Text × Json)
  cells : Option Json

namespace Container

def ofFields? (fields : List (Text × Json)) : Option Container := do
  let field (key : Text) : Option Json := fields.lookup key
  return {
    major := (← optional? Json.nat32? (field "nbformat")).getD 4
    minor := (← optional? Json.nat32? (field "nbformat_minor")).getD 0
    metadata := (← optional? Json.members? (field "metadata")).getD []
    cells := Json.present? (field "cells") }

/-- The notebook of a container. Formats before the fourth are not read. -/
def notebook (c : Container) : Except NotebookError Notebook :=
  if c.major < 4 then .error (.unsupportedVersion c.major c.minor)
  else match c.cells with
    | none => .error .missingCells
    | some (.array cells) =>
      (decodeCells 0 cells).map (⟨c.major, c.minor, decodeMetadata c.metadata, ·⟩)
    | some _ => .error .cellsNotArray

end Container

def ofFields (fields : List (Text × Json)) : Except NotebookError Notebook :=
  match Container.ofFields? fields with
  | some c => c.notebook
  | none => .error .undecodable

def decode (s : Bytes) : Except NotebookError Notebook :=
  match readContainer? s with
  | some fields => ofFields fields
  | none => .error .undecodable

end Notebook
end NotebookPages
