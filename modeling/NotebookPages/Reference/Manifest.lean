import NotebookPages.Path.Basic
import NotebookPages.Text.Phrase
import NotebookPages.Toml.Reader

/-!
The manifest of a set of reference pages: every documented symbol is listed in it. Its page paths are
relative, stay inside the output directory, and name each file once.
-/

namespace NotebookPages.Reference

inductive EntryKind where
  | function
  | classType
  | exception
  | constant
  deriving DecidableEq, Repr

structure Entry where
  name : Text
  signature : Option Text
  description : Text
  kind : EntryKind
  deriving DecidableEq, Repr

structure Section where
  heading : Text
  entries : List Entry
  deriving DecidableEq, Repr

structure SymbolPage where
  path : Path
  title : Text
  position : Option Int
  intro : Text
  sections : List Section
  deriving DecidableEq, Repr

structure ModulePage where
  path : Path
  name : Text
  givenTitle : Option Text
  description : Text
  accessPath : Text
  group : Option Text
  position : Option Int
  deriving DecidableEq, Repr

structure IndexPage where
  path : Path
  title : Text
  description : Text
  group : Text
  position : Option Int
  deriving DecidableEq, Repr

structure Manifest where
  language : Text
  importLine : Option Text
  pages : List SymbolPage
  modules : List ModulePage
  indexes : List IndexPage
  deriving DecidableEq, Repr

def Entry.shownSignature (e : Entry) : Text :=
  match e.signature.filter (!Text.allBlank ·) with
  | some signature => Text.trim signature
  | none =>
    match e.kind with
    | .function => e.name ++ "()"
    | .constant => e.name
    | .classType => "class " ++ e.name
    | .exception => "class " ++ e.name

def ModulePage.title (m : ModulePage) : Text := m.givenTitle.getD (Text.titleCase m.name)

open Toml.Value (string? integer? list? required? optional? defaulted?)

namespace EntryKind

def ofName? (name : Text) : Option EntryKind :=
  [("function", function), ("class", classType), ("exception", exception), ("constant", constant)].lookup
    (String.ofList name)

/-- A kind is its name, or a table with the name as its only key and nothing under it. -/
def decode? : Toml.Value → Option EntryKind
  | .string name => ofName? name
  | .table [(name, .array [])] => ofName? name
  | .table [(name, .table [])] => ofName? name
  | _ => none

end EntryKind

def Entry.decode? (v : Toml.Value) : Option Entry := do
  let field ← v.fields? ["name", "signature", "description", "kind"]
  return {
    name := ← required? string? (field "name")
    signature := ← optional? string? (field "signature")
    description := ← defaulted? string? [] (field "description")
    kind := ← defaulted? EntryKind.decode? .function (field "kind") }

def Section.decode? (v : Toml.Value) : Option Section := do
  let field ← v.fields? ["heading", "entry"]
  return {
    heading := ← required? string? (field "heading")
    entries := ← defaulted? (list? Entry.decode?) [] (field "entry") }

def SymbolPage.decode? (v : Toml.Value) : Option SymbolPage := do
  let field ← v.fields? ["path", "title", "sidebar_position", "intro", "section"]
  return {
    path := ← required? string? (field "path")
    title := ← required? string? (field "title")
    position := ← optional? integer? (field "sidebar_position")
    intro := ← defaulted? string? [] (field "intro")
    sections := ← defaulted? (list? Section.decode?) [] (field "section") }

def ModulePage.decode? (v : Toml.Value) : Option ModulePage := do
  let field ← v.fields?
    ["path", "name", "display_name", "description", "access_path", "group", "sidebar_position"]
  return {
    path := ← required? string? (field "path")
    name := ← required? string? (field "name")
    givenTitle := ← optional? string? (field "display_name")
    description := ← defaulted? string? [] (field "description")
    accessPath := ← required? string? (field "access_path")
    group := ← optional? string? (field "group")
    position := ← optional? integer? (field "sidebar_position") }

def IndexPage.decode? (v : Toml.Value) : Option IndexPage := do
  let field ← v.fields? ["path", "title", "description", "group", "sidebar_position"]
  return {
    path := ← required? string? (field "path")
    title := ← required? string? (field "title")
    description := ← defaulted? string? [] (field "description")
    group := ← required? string? (field "group")
    position := ← optional? integer? (field "sidebar_position") }

inductive ManifestError where
  | undecodable
  /-- A page path that is empty, absolute, or climbs up. -/
  | outside (path : Path)
  | duplicate (path : Path)
  deriving DecidableEq, Repr

def ManifestError.message (e : ManifestError) : Text :=
  "Manifest error: " ++ match e with
    | undecodable => ("<decode error>" : Text)
    | outside path =>
      "page path must be relative and inside the output directory: " ++ path
    | duplicate path => "duplicate page path: " ++ path

namespace Manifest

def decode? (v : Toml.Value) : Option Manifest := do
  let field ← v.fields? ["language", "import_line", "page", "module", "index"]
  return {
    language := ← defaulted? string? "python" (field "language")
    importLine := ← optional? string? (field "import_line")
    pages := ← defaulted? (list? SymbolPage.decode?) [] (field "page")
    modules := ← defaulted? (list? ModulePage.decode?) [] (field "module")
    indexes := ← defaulted? (list? IndexPage.decode?) [] (field "index") }

def paths (m : Manifest) : List Path :=
  m.pages.map SymbolPage.path ++ m.modules.map ModulePage.path ++ m.indexes.map IndexPage.path

/-- The path is relative and never climbs up. -/
def staysInside (p : Path) : Bool :=
  !p.isEmpty && (Path.components p).all fun
    | .name _ => true
    | .here => true
    | _ => false

/-- Check paths after those in `seen`. -/
def checkPaths (seen : List Path) : List Path → Except ManifestError Unit
  | [] => .ok ()
  | p :: rest =>
    if !staysInside p then .error (.outside p)
    else if seen.any (Path.same p) then .error (.duplicate p)
    else checkPaths (p :: seen) rest

def read (text : Text) : Except ManifestError Manifest :=
  match (Toml.read? text).bind decode? with
  | none => .error .undecodable
  | some m => (checkPaths [] m.paths).map fun _ => m

end Manifest
end NotebookPages.Reference
