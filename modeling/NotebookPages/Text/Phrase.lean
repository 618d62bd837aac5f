import NotebookPages.Text.Case

/-!
Short texts for people and for file names: collapsed, cut to a length, in title case, or reduced to
the characters of a link.
-/

namespace NotebookPages.Text

/-- Every run of blanks becomes one space, and none remains at either end. -/
def collapse (t : Text) : Text := joinWith " " (wordsBy isBlank t)

def ellipsis : Text := "..."

/-- A text over the limit gives way to its start and the ellipsis. -/
def shorten (limit : Nat) (t : Text) : Text :=
  if t.length ≤ limit then t else t.take (limit - ellipsis.length) ++ ellipsis

def capitalize : Text → Text
  | [] => []
  | c :: rest => upperChar c ++ rest.flatMap lowerChar

def titleCase (stem : Text) : Text :=
  joinWith " " ((wordsBy (fun c => c == '_' || c == '-' || isBlank c) stem).map capitalize)

/-- ASCII letters in lower case, digits and underscores are kept; all else is a dash. -/
def slugChar (c : Char) : Char :=
  if isAlphanumeric c || c == '_' then asciiLower c else '-'

def squeezeDashes : Text → Text
  | [] => []
  | c :: rest =>
    if c == '-' && rest.head? == some '-' then squeezeDashes rest else c :: squeezeDashes rest

/-- A file stem over lower-case letters, digits, underscores and single inner dashes. -/
def slug (stem : Text) : Text :=
  dropEndWhile (· == '-') ((squeezeDashes (stem.map slugChar)).dropWhile (· == '-'))

end NotebookPages.Text
