import NotebookPages.Settings.Basic

/-!
The text of settings files: reading, printing, and the commented template that a new file begins with.
Unknown keys are ignored.
-/

namespace NotebookPages

open Toml.Value (string? integer? natural? boolean? optional?)

namespace ConvertSettings

def names : List Text := ["dialect", "language", "output_dir", "max_line_chars", "sidebar_position"]

def decode? (v : Toml.Value) : Option ConvertSettings := do
  let field ← v.fields? names
  return {
    dialect := ← optional? string? (field "dialect")
    language := ← optional? string? (field "language")
    outputDir := ← optional? string? (field "output_dir")
    maxLine := ← optional? natural? (field "max_line_chars")
    sidebarPosition := ← optional? integer? (field "sidebar_position") }

end ConvertSettings

namespace DescriptionSettings

def names : List Text := ["min_chars", "max_chars", "fallback"]

def decode? (v : Toml.Value) : Option DescriptionSettings := do
  let field ← v.fields? names
  return {
    minLength := ← optional? natural? (field "min_chars")
    maxLength := ← optional? natural? (field "max_chars")
    fallback := ← optional? string? (field "fallback") }

end DescriptionSettings

namespace BatchSettings

def names : List Text := ["fail_fast", "parallel", "backup"]

def decode? (v : Toml.Value) : Option BatchSettings := do
  let field ← v.fields? names
  return {
    failFast := ← optional? boolean? (field "fail_fast")
    parallel := ← optional? natural? (field "parallel")
    backup := ← optional? boolean? (field "backup") }

end BatchSettings

namespace Settings

def names : List Text := ["convert", "description", "batch"]

def decode? (v : Toml.Value) : Option Settings := do
  let field ← v.fields? names
  return {
    convert := ← optional? ConvertSettings.decode? (field "convert")
    description := ← optional? DescriptionSettings.decode? (field "description")
    batch := ← optional? BatchSettings.decode? (field "batch") }

def read? (text : Text) : Option Settings := (Toml.read? text).bind decode?

def pair (key : Text) (show_ : α → Text) (value : Option α) : List (Text × Text) :=
  (value.map fun v => (key, show_ v)).toList

def boolText : Bool → Text
  | true => "true"
  | false => "false"

def tables (s : Settings) : List Text :=
  let convert := s.convert.map fun c => Toml.tableText "convert" (
    pair "dialect" Toml.quote c.dialect ++ pair "language" Toml.quote c.language ++
    pair "output_dir" Toml.quote c.outputDir ++ pair "max_line_chars" Text.ofNat c.maxLine ++
    pair "sidebar_position" Text.ofInt c.sidebarPosition)
  let description := s.description.map fun d => Toml.tableText "description" (
    pair "min_chars" Text.ofNat d.minLength ++ pair "max_chars" Text.ofNat d.maxLength ++
    pair "fallback" Toml.quote d.fallback)
  let batch := s.batch.map fun b => Toml.tableText "batch" (
    pair "fail_fast" boolText b.failFast ++ pair "parallel" Text.ofNat b.parallel ++
    pair "backup" boolText b.backup)
  convert.toList ++ description.toList ++ batch.toList

def print (s : Settings) : Text := Text.joinWith "\n" s.tables

def toJson (s : Settings) : Json :=
  let member {α : Type} (key : Text) (f : α → Json) (value : Option α) : List (Text × Json) :=
    (value.map fun v => (key, f v)).toList
  let natural (n : Nat) : Json := .integer n
  .object (
    member "convert" (fun c : ConvertSettings => .object (
      member "dialect" .string c.dialect ++ member "language" .string c.language ++
      member "output_dir" .string c.outputDir ++ member "max_line_chars" natural c.maxLine ++
      member "sidebar_position" .integer c.sidebarPosition)) s.convert ++
    member "description" (fun d : DescriptionSettings => .object (
      member "min_chars" natural d.minLength ++ member "max_chars" natural d.maxLength ++
      member "fallback" .string d.fallback)) s.description ++
    member "batch" (fun b : BatchSettings => .object (
      member "fail_fast" .bool b.failFast ++ member "parallel" natural b.parallel ++
      member "backup" .bool b.backup)) s.batch)

def templateLines : List Text := [
  "# nbdoc configuration",
  "#",
  "# Project config: ./.nbdoc.toml (overrides the user config)",
  "# User config:    ~/.nbdoc.toml",
  "# Command-line flags override both.",
  "",
  "[convert]",
  "# Output dialect: \"mdx\" (Docusaurus) or \"markdown\"",
  "dialect = \"mdx\"",
  "# Fence language for code cells when the notebook does not name one",
  "language = \"python\"",
  "# Directory for converted pages (default: next to each input)",
  "# output_dir = \"docs/notebooks\"",
  "# Lines longer than this are replaced with a note",
  "max_line_chars = 2000",
  "# sidebar_position = 1",
  "",
  "[description]",
  "# A prose line must be longer than this to become the description",
  "min_chars = 20",
  "# Longer descriptions are cut and end in \"...\"",
  "max_chars = 150",
  "# fallback = \"Jupyter notebook converted to documentation\"",
  "",
  "[batch]",
  "# Stop at the first failed file",
  "fail_fast = false",
  "# Worker threads (0 = one per core)",
  "parallel = 0",
  "# Keep a .backup copy of pages that get overwritten",
  "backup = false"]

def template : Text := templateLines.flatMap Text.line

end Settings
end NotebookPages
