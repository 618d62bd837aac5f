import NotebookPages.Text.Vocabulary

/-!
The two markup dialects a page is written in. MDX reads braces as expressions and `<` as JSX, so its
prose needs full escaping; plain Markdown only needs its tags in order.
-/

namespace NotebookPages

inductive Dialect where
  | mdx
  | markdown
  deriving DecidableEq, Repr, Inhabited

namespace Dialect

def name : Dialect → Text
  | mdx => "mdx"
  | markdown => "markdown"

def extension : Dialect → Text
  | mdx => "mdx"
  | markdown => "md"

/-- A comment that shows `text` in the source only. What would end it early is spaced out. -/
def comment : Dialect → Text → Text
  | mdx, text => "\x7b/* " ++ Text.replace "*/" "* /" text ++ " */\x7d"
  | markdown, text => "<!-- " ++ Text.replace "--" "- -" text ++ " -->"

def parse (name : Text) : Except UnknownName Dialect :=
  let lowered := Text.lower name
  if lowered = ("mdx" : Text) then .ok mdx
  else if lowered = ("markdown" : Text) ∨ lowered = ("md" : Text) then .ok markdown
  else .error ⟨"dialect", name, ["mdx", "markdown"]⟩

end Dialect
end NotebookPages
