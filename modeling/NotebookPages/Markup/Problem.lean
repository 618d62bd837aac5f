import NotebookPages.Text.Basic

/-!
What a strict compiler would reject in a page, and how often a text was changed to repair it.
-/

namespace NotebookPages

inductive Problem where
  | unescapedBrace
  | bareAngleBracket
  | dataUrl
  | htmlComment
  | unclosedTag
  | longLine
  | unclosedFence
  deriving DecidableEq, Repr

namespace Problem

/-- All kinds in the order in which the problems of one line are listed. -/
def all : List Problem :=
  [unescapedBrace, bareAngleBracket, dataUrl, htmlComment, unclosedTag, longLine, unclosedFence]

def description : Problem → Text
  | unescapedBrace => "unescaped curly brace outside code"
  | bareAngleBracket => "bare angle bracket outside a tag"
  | dataUrl => "inline data URL image"
  | htmlComment => "HTML comment (use \x7b/* */\x7d in MDX)"
  | unclosedTag => "HTML tag without a matching partner"
  | longLine => "line too long"
  | unclosedFence => "code fence is never closed"

def words : Problem → List Text
  | unescapedBrace => ["unescaped", "brace"]
  | bareAngleBracket => ["bare", "angle", "bracket"]
  | dataUrl => ["data", "url"]
  | htmlComment => ["html", "comment"]
  | unclosedTag => ["unclosed", "tag"]
  | longLine => ["long", "line"]
  | unclosedFence => ["unclosed", "fence"]

def label (p : Problem) : Text := Text.joinWith "-" p.words

def key (p : Problem) : Text := Text.joinWith "_" p.words

end Problem

structure Report where
  escapedBraces : Nat := 0
  escapedAngleBrackets : Nat := 0
  replacedImages : Nat := 0
  convertedComments : Nat := 0
  removedTags : Nat := 0
  truncatedLines : Nat := 0
  deriving DecidableEq, Repr

namespace Report

def ofProblems (ps : List Problem) : Report where
  escapedBraces := ps.count .unescapedBrace
  escapedAngleBrackets := ps.count .bareAngleBracket
  replacedImages := ps.count .dataUrl
  convertedComments := ps.count .htmlComment
  removedTags := ps.count .unclosedTag
  truncatedLines := ps.count .longLine

def add (a b : Report) : Report where
  escapedBraces := a.escapedBraces + b.escapedBraces
  escapedAngleBrackets := a.escapedAngleBrackets + b.escapedAngleBrackets
  replacedImages := a.replacedImages + b.replacedImages
  convertedComments := a.convertedComments + b.convertedComments
  removedTags := a.removedTags + b.removedTags
  truncatedLines := a.truncatedLines + b.truncatedLines

instance : Add Report := ⟨add⟩

def isClean (r : Report) : Bool := r == {}

def count (r : Report) : Problem → Nat
  | .unescapedBrace => r.escapedBraces
  | .bareAngleBracket => r.escapedAngleBrackets
  | .dataUrl => r.replacedImages
  | .htmlComment => r.convertedComments
  | .unclosedTag => r.removedTags
  | .longLine => r.truncatedLines
  | .unclosedFence => 0

private def part? (n : Nat) (noun : Text) : Option Text :=
  let ending : Text := if n = 1 then "" else "s"
  if n = 0 then none else some (Text.ofNat n ++ (" " ++ noun ++ ending))

def summary (r : Report) : Text :=
  let parts := [
    part? r.escapedBraces "escaped brace",
    part? r.escapedAngleBrackets "escaped angle bracket",
    part? r.replacedImages "replaced image",
    part? r.convertedComments "converted comment",
    part? r.removedTags "removed tag",
    part? r.truncatedLines "truncated line"].filterMap id
  if parts.isEmpty then "no changes" else Text.joinWith ", " parts

end Report
end NotebookPages
