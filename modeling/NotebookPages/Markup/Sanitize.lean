import NotebookPages.Markup.Fence
import NotebookPages.Markup.Pairing
import NotebookPages.Markup.Prose

/-!
The pass that makes prose safe for a dialect. Lines in fences are copied; each line of prose is read as
pieces; the tags of the whole document are paired and those without a partner removed; a line that
is too long gives way to a comment. The pass keeps what it found, so that the repaired text, the
report of the changes and the problems by line are all read off one value.
-/

namespace NotebookPages.Markup

structure Rules where
  dialect : Dialect := .mdx
  maxLine : Nat := 2000
  deriving DecidableEq, Repr

def longLineNote : Text := "Very long line truncated for documentation"

inductive Line where
  | fenced (source : Text)
  | prose (source : Text) (pieces : List Piece)
  | replaced (source : Text)
  deriving DecidableEq, Repr

namespace Line

def source : Line → Text
  | fenced source => source
  | prose source _ => source
  | replaced source => source

def pieces : Line → List Piece
  | prose _ pieces => pieces
  | _ => []

def tags (l : Line) : List Tag := l.pieces.filterMap Piece.tag?

def problems : Line → List Problem
  | fenced _ => []
  | prose _ pieces => pieces.filterMap Piece.problem?
  | replaced _ => [.longLine]

def ofProse (rules : Rules) (source : Text) : Line :=
  let pieces := scanLine rules.dialect source
  if rules.maxLine < Piece.totalWidth rules.dialect pieces then replaced source
  else prose source pieces

def read (rules : Rules) (held : Option Fence) (source : Text) : Line :=
  if Fence.isProse held source then ofProse rules source else fenced source

def settle (flags : List Bool) : Line → Line
  | prose source pieces => prose source (Piece.settle flags pieces)
  | l => l

/-- A prose line keeps its role: one that the removal of markup made a fence is escaped. -/
def guardFence (written : Text) : Text :=
  if (Fence.open? written).isSome then
    written.takeWhile Text.isBlank ++ '\\' :: written.dropWhile Text.isBlank
  else written

def render (d : Dialect) : Line → Text
  | fenced source => source
  | prose _ pieces => guardFence (Piece.weld d none false false pieces)
  | replaced _ => d.comment longLineNote

end Line

/-- Read lines, the first of which `held` holds. -/
def readLines (rules : Rules) (held : Option Fence) : List Text → List Line
  | [] => []
  | source :: rest => Line.read rules held source :: readLines rules (Fence.next held source) rest

/-- Settle lines with the flags of all their tags in order. -/
def settleLines : List Bool → List Line → List Line
  | _, [] => []
  | flags, l :: rest => l.settle flags :: settleLines (flags.drop l.tags.length) rest

structure Pass where
  lines : List Line
  openFence : Option Nat
  deriving DecidableEq, Repr

namespace Pass

def run (rules : Rules) (text : Text) : Pass :=
  let sources := Text.splitLines text
  let lines := readLines rules none sources
  ⟨settleLines (keepFlags (lines.flatMap Line.tags)) lines, Fence.openLine? none none 1 sources⟩

def problems (p : Pass) : List Problem := p.lines.flatMap Line.problems

def report (p : Pass) : Report := .ofProblems p.problems

def output (d : Dialect) (p : Pass) : Text := Text.joinWith "\n" (p.lines.map (Line.render d))

end Pass

def sanitize (rules : Rules) (text : Text) : Text := (Pass.run rules text).output rules.dialect

def sanitizeReport (rules : Rules) (text : Text) : Text × Report :=
  let pass := Pass.run rules text
  (pass.output rules.dialect, pass.report)

end NotebookPages.Markup
