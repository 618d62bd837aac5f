import NotebookPages.Document.Header
import NotebookPages.Markup.Sanitize
import NotebookPages.Notebook.Summary
import NotebookPages.Reference.Manifest

/-!
The pages of a manifest: symbols with their signatures, modules with their usage, and indexes that link
the modules of a group.
-/

namespace NotebookPages.Reference

structure GeneratedPage where
  path : Path
  content : Text
  deriving DecidableEq, Repr

def descriptionLimit : Nat := 150

def paragraph (text : Text) : Text := text ++ "\n\n"

def prose (d : Dialect) (text : Text) : Text := Markup.sanitize { dialect := d } (Text.trim text)

def proseUnlessBlank (d : Dialect) (text : Text) : Text :=
  if Text.allBlank text then [] else paragraph (prose d text)

def opening (d : Dialect) (title description : Text) (position : Option Int) : Text :=
  let summary := if Text.allBlank description then title
    else Notebook.cleanDescription descriptionLimit description
  Header.render ⟨title, summary, position⟩ ++ paragraph ("# " ++ prose d title)

/-- The text without dashes at its end, three at a time; the text is given in reverse. -/
def dropRules : Text → Text
  | '-' :: '-' :: '-' :: rest => dropRules rest
  | t => t

/-- End a page without the rule after its last entry. -/
def finish (text : Text) : Text :=
  Text.line (Text.trimEnd (dropRules (Text.trimEnd text).reverse).reverse)

def entryText (d : Dialect) (language : Text) (e : Entry) : Text :=
  paragraph ("### " ++ prose d e.name) ++ paragraph (Fence.block language e.shownSignature) ++
    proseUnlessBlank d e.description ++ paragraph "---"

def sectionText (d : Dialect) (language : Text) (s : Section) : Text :=
  paragraph ("## " ++ prose d s.heading) ++ s.entries.flatMap (entryText d language)

def symbolPage (d : Dialect) (m : Manifest) (p : SymbolPage) : GeneratedPage where
  path := p.path
  content := finish (opening d p.title p.intro p.position ++ proseUnlessBlank d p.intro ++
    p.sections.flatMap (sectionText d m.language))

def usage (m : Manifest) (p : ModulePage) : Text :=
  (match m.importLine with
    | some line => paragraph line
    | none => []) ++
    "# Access functions from this module\n" ++ p.accessPath ++ ".<function_name>()"

def modulePage (d : Dialect) (m : Manifest) (p : ModulePage) : GeneratedPage where
  path := p.path
  content := opening d p.title p.description p.position ++ proseUnlessBlank d p.description ++
    paragraph "*Detailed reference for this module is not generated yet.*" ++
    paragraph "## Usage" ++ Text.line (Fence.block m.language (usage m p))

def sharedCount : List Path.Component → List Path.Component → Nat
  | a :: as, b :: bs => if a = b then sharedCount as bs + 1 else 0
  | _, _ => 0

/-- A link from one page to another, relative to the directory of the first and without extension. -/
def relativeLink (source target : Path) : Text :=
  let directory := Path.components ((Path.parent? source).getD [])
  let parts := Path.components (Path.withoutExtension target)
  let shared := sharedCount directory parts
  let climb := directory.length - shared
  let start : Text := if climb = 0 then "./" else (List.replicate climb ("../" : Text)).flatten
  start ++ Text.joinWith "/" ((parts.drop shared).map Path.Component.text)

def indexLine (d : Dialect) (index : IndexPage) (m : ModulePage) : Text :=
  let link : Text := "- **[" ++ prose d m.title ++ "](" ++ relativeLink index.path m.path ++ ")**"
  let summary : Text := if Text.allBlank m.description then [] else ": " ++ prose d m.description
  Text.line (link ++ summary)

def indexPage (d : Dialect) (m : Manifest) (p : IndexPage) : GeneratedPage where
  path := p.path
  content :=
    let members := m.modules.filter (·.group = some p.group)
    opening d p.title p.description p.position ++ proseUnlessBlank d p.description ++
      if members.isEmpty then
        Text.line "*See the individual module pages for detailed documentation.*"
      else paragraph "## Available Modules" ++ members.flatMap (indexLine d p)

def generate (d : Dialect) (m : Manifest) : List GeneratedPage :=
  m.pages.map (symbolPage d m) ++ m.modules.map (modulePage d m) ++ m.indexes.map (indexPage d m)

end NotebookPages.Reference
