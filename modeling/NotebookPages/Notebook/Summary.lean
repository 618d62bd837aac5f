import NotebookPages.Markup.Fence
import NotebookPages.Notebook.Basic
import NotebookPages.Path.Basic
import NotebookPages.Text.Phrase

/-!
The title and the description of a notebook: from its metadata, else from its own Markdown, else a
fallback. Cells and lines are searched in order and the first match is taken.
-/

namespace NotebookPages

structure DescriptionRules where
  minLength : Nat := 20
  maxLength : Nat := 150
  fallback : Text := "Jupyter notebook converted to documentation"
  deriving DecidableEq, Repr

namespace Notebook

/-- The trimmed lines of prose, given the fence that holds the first line. -/
def proseFrom (held : Option Fence) : List Text → List Text
  | [] => []
  | line :: rest =>
    let others := proseFrom (Fence.next held line) rest
    if Fence.isProse held line then Text.trim line :: others else others

def proseLines (source : Text) : List Text := proseFrom none (Text.lines source)

/-- The text without tags: whatever stands between a `<` and the next `>`. -/
def withoutTags (inside : Bool) : Text → Text
  | [] => []
  | c :: rest =>
    if inside then withoutTags (c != '>') rest
    else if c == '<' && rest.contains '>' then withoutTags true rest
    else c :: withoutTags false rest

def isMark (c : Char) : Bool := c == '*' || c == '_' || c == '`'

def cleanWords (text : Text) : Text :=
  Text.collapse ((withoutTags false text).filter (!isMark ·))

def cleanDescription (limit : Nat) (text : Text) : Text := Text.shorten limit (cleanWords text)

/-- Headings, images, tables and empty lines describe nothing. -/
def isSkipped (line : Text) : Bool :=
  line.isEmpty || ([("#" : Text), "![", "|"].any (Text.startsWith line ·))

def heading? (line : Text) : Option Text :=
  match Text.after? "# " line with
  | none => none
  | some rest =>
    let text := Text.collapse (Text.dropEndWhile (· == '#') rest)
    if text.isEmpty then none else some text

def firstHeading? (source : Text) : Option Text := (proseLines source).findSome? heading?

def untitled : Text := "Untitled"

def titleOfPath (p : Path) : Text :=
  let title := ((Path.stem? p).map Text.titleCase).getD []
  if title.isEmpty then untitled else title

def present? (value : Option Text) : Option Text := value.filter (!Text.allBlank ·)

def title (n : Notebook) (destination : Path) : Text :=
  match present? n.metadata.title with
  | some title => Text.collapse title
  | none => (n.markdownSources.head?.bind firstHeading?).getD (titleOfPath destination)

def description (rules : DescriptionRules) (n : Notebook) : Text :=
  match present? n.metadata.description with
  | some text => cleanDescription rules.maxLength text
  | none =>
    let lines := (n.markdownSources.flatMap proseLines).filter (!isSkipped ·)
    match (lines.map cleanWords).find? (rules.minLength < ·.length) with
    | some line => Text.shorten rules.maxLength line
    | none => rules.fallback

end Notebook
end NotebookPages
