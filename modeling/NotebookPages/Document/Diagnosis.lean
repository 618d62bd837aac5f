import NotebookPages.Document.Header
import NotebookPages.Markup.Sanitize
import NotebookPages.Text.Phrase

/-!
The problems of a document by line. They are what a pass over the body would repair, and a fence that
is left open, which no pass repairs.
-/

namespace NotebookPages

/-- A problem and the line where it stands, counted from one. -/
structure Finding where
  line : Nat
  problem : Problem
  excerpt : Text
  deriving DecidableEq, Repr

namespace Finding

def excerptLimit : Nat := 80

def message (f : Finding) : Text :=
  "line " ++ Text.ofNat f.line ++ ": " ++ f.problem.description ++ " [" ++ f.problem.label ++ "]: "
    ++ f.excerpt

end Finding

namespace Document

/-- The findings on the lines of a pass. `number` is the number of the first line within the body,
and `offset` the number of lines before the body. -/
def findingsFrom (offset number : Nat) (openFence : Option Nat) : List Markup.Line → List Finding
  | [] => []
  | line :: rest =>
    let here := Problem.all.filter fun p =>
      line.problems.contains p || (p == .unclosedFence && openFence == some number)
    here.map (⟨number + offset, ·, Text.shorten Finding.excerptLimit (Text.trim line.source)⟩)
      ++ findingsFrom offset (number + 1) openFence rest

/-- All findings by line, each kind at most once on a line. -/
def diagnose (rules : Markup.Rules) (text : Text) : List Finding :=
  let (header, body) := split text
  let offset := (Text.lines (header.getD [])).length
  let pass := Markup.Pass.run rules body
  findingsFrom offset 1 pass.openFence pass.lines

end Document
end NotebookPages
