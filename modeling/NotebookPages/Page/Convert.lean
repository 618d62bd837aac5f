import NotebookPages.Document.Diagnosis
import NotebookPages.Document.Fields
import NotebookPages.Notebook.Decode
import NotebookPages.Page.Body

/-!
Pages from notebooks and from Markdown documents. A document that has a header keeps it; every other
page gets one with a title and a description.
-/

namespace NotebookPages

inductive SourceFormat where
  | notebook
  | markdown
  deriving DecidableEq, Repr

namespace SourceFormat

def name : SourceFormat → Text
  | notebook => "notebook"
  | markdown => "markdown"

def extensions : List (String × SourceFormat) :=
  [("ipynb", notebook), ("md", markdown), ("markdown", markdown), ("mdx", markdown)]

def ofExtension? (extension : Text) : Option SourceFormat :=
  extensions.lookup (String.ofList (Text.lower extension))

def ofPath? (p : Path) : Option SourceFormat := (Path.extension? p).bind ofExtension?

end SourceFormat

structure Page where
  path : Path
  content : Text
  title : Text
  description : Text
  stats : Stats
  deriving DecidableEq, Repr

namespace Page

def ofNotebook (o : PageOptions) (destination : Path) (n : Notebook) : Page :=
  let title := n.title destination
  let description := n.description o.description
  let (body, stats) := renderBody o n
  ⟨destination, Header.render ⟨title, description, o.sidebarPosition⟩ ++ body, title, description,
    stats⟩

def ofBytes (o : PageOptions) (destination : Path) (bytes : Bytes) : Except NotebookError Page :=
  (Notebook.decode bytes).map (ofNotebook o destination)

def ofMarkdown (o : PageOptions) (destination : Path) (text : Text) : Page :=
  match Document.split text with
  | (none, _) => ofNotebook o destination (Notebook.ofMarkdown text)
  | (some header, body) =>
    let (sanitized, report) := Markup.sanitizeReport o.rules body
    let document := Notebook.ofMarkdown body
    let fields := Document.fields header
    { path := destination
      content := header ++ sanitized
      title := (fields.text? "title").getD (document.title destination)
      description := (fields.text? "description").getD (document.description o.description)
      stats := { markdownCells := 1, sanitizer := report } }

def fallbackStem : Text := "document"

/-- Where the page of a source is written: beside it, or in a directory of its own. -/
def outputPath (d : Dialect) (directory : Option Path) (input : Path) : Path :=
  let slug := ((Path.stem? input).map Text.slug).getD []
  let stem := if slug.isEmpty then fallbackStem else slug
  Path.join ((directory.or (Path.parent? input)).getD []) (stem ++ "." ++ d.extension)

end Page

namespace Document

def fix (rules : Markup.Rules) (text : Text) : Text × Report :=
  let (header, body) := split text
  let (sanitized, report) := Markup.sanitizeReport rules body
  (header.getD [] ++ sanitized, report)

/-- The document with a generated header, unless it has one. -/
def addHeader? (rules : DescriptionRules) (path : Path) (text : Text) : Option Text :=
  if hasHeader text then none
  else
    let document := Notebook.ofMarkdown text
    some (Header.render ⟨document.title path, document.description rules, none⟩ ++ text)

end Document
end NotebookPages
