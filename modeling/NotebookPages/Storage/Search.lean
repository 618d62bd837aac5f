import NotebookPages.Page.Convert
import NotebookPages.Path.Pattern
import NotebookPages.Storage.FileTree

/-!
Which files the inputs of a command stand for: a directory for the source files below it, a pattern for
the files it matches, any other input for itself.
-/

namespace NotebookPages

structure InvalidPattern where
  pattern : Text
  error : Path.PatternError
  deriving DecidableEq, Repr

namespace FileTree

def contents (t : FileTree) (p : Path) : List (Path × Text × Entry) :=
  match t.locate p with
  | .error _ => []
  | .ok l => (t.below l).filterMap fun (way, e) =>
      way.getLast?.map fun name =>
        let here : Path := if Path.same p "." then [] else p
        (way.foldl Path.join here, name, e)

def children (t : FileTree) (p : Path) : List (Path × Text × Entry) :=
  match t.locate p with
  | .error _ => []
  | .ok l => (t.below l).filterMap fun (way, e) =>
      match way with
      | [name] => some (if Path.same p "." then name else Path.join p name, name, e)
      | _ => none

/-- The paths that segments lead to from a path, the entries of a directory in ascending order. -/
def follow (t : FileTree) (directories : Bool) : List Path.Segment → Path → List Path
  | [], p => if directories && !t.isDirectory p then [] else [p]
  | .literal name :: rest, p =>
    let next := if Path.same p "." then name else Path.join p name
    let there := if name = "." ∨ name = ".." then t.isDirectory p else t.contains next
    if there then follow t directories rest next else []
  | [.recursive], p =>
    (t.contents p).filterMap fun (q, _, e) => if e = .directory then some q else none
  | .recursive :: .recursive :: rest, p => follow t directories (.recursive :: rest) p
  | .recursive :: s :: rest, p =>
    (t.contents p).flatMap fun (q, name, _) =>
      if s.matchesName name then follow t directories rest q else []
  | .wild wildcards :: rest, p =>
    if t.isDirectory p then
      let dots : List Text :=
        if wildcards.head? = some (.char '.') then
          [("..": Text), "."].filter (Path.Wildcard.covers wildcards)
        else []
      dots.flatMap (fun name => follow t directories rest (Path.join p name)) ++
        (t.children p).flatMap fun (q, name, _) =>
          if Path.Wildcard.covers wildcards name then follow t directories rest q else []
    else []

def matching (t : FileTree) (pattern : Text) : Except InvalidPattern (List Path) :=
  match Path.Pattern.read pattern with
  | .error e => .error ⟨pattern, e⟩
  | .ok p =>
    let start : Path := if p.absolute then "/" else "."
    .ok ((t.follow p.directories p.segments start).filter t.isFile)

def expandInput (t : FileTree) (input : Path) : Except InvalidPattern (List Path) :=
  if t.isDirectory input then
    (t.matching (Path.join (Path.join input "**") "*")).map fun files =>
      files.filter fun p => (SourceFormat.ofPath? p).isSome
  else if Path.Pattern.isPattern input then t.matching input
  else .ok [input]

/-- The paths without those that repeat an earlier one. -/
def distinct : List Path → List Path
  | [] => []
  | p :: rest => p :: (distinct rest).filter (!Path.same p ·)

/-- The files that the inputs stand for, each path once. -/
def expand (t : FileTree) (inputs : List Path) : Except InvalidPattern (List Path) :=
  (inputs.mapM t.expandInput).map fun files => distinct files.flatten

end FileTree
end NotebookPages
