import NotebookPages.Markup.Problem
import NotebookPages.Markup.Tag
import NotebookPages.Text.Utf8

/-!
The pieces of a prose line in source order. Every piece keeps the source it was read from, so the
line is the concatenation of the sources of its pieces.
-/

namespace NotebookPages.Markup

inductive Piece where
  /-- Text and what is written for it, with the problem that made the two differ. -/
  | text (source written : Text) (problem : Option Problem)
  | tag (source : Text) (tag : Tag)
  /-- A declaration, which no page shows. -/
  | dropped (source : Text)
  /-- A tag without a partner in the document. -/
  | stray (source : Text)
  deriving DecidableEq, Repr

namespace Piece

def plain (source : Text) : Piece := text source source none

def source : Piece → Text
  | text source _ _ => source
  | tag source _ => source
  | dropped source => source
  | stray source => source

def tag? : Piece → Option Tag
  | tag _ t => some t
  | _ => none

def problem? : Piece → Option Problem
  | text _ _ problem => problem
  | stray _ => some .unclosedTag
  | _ => none

/-- What the piece adds to the length of its line before the tags are paired. Declarations count
with the bytes of their source. -/
def width (d : Dialect) : Piece → Nat
  | text _ written _ => written.length
  | tag _ t => (t.render d).length
  | dropped source => Text.utf8Length source
  | stray _ => 0

def totalWidth (d : Dialect) : List Piece → Nat
  | [] => 0
  | p :: rest => p.width d + totalWidth d rest

def shown? (d : Dialect) : Piece → Option (Text × Bool)
  | text _ written _ => some (written, true)
  | tag _ t => some (t.render d, false)
  | _ => none

/-- Write the pieces one after another. Removed markup between two texts leaves a space where the
two would otherwise touch; `last` is the character written last, `gap` says that markup was removed
since, and `afterText` that the piece before was text. -/
def weld (d : Dialect) (last : Option Char) (gap afterText : Bool) : List Piece → Text
  | [] => []
  | p :: rest =>
    match p.shown? d with
    | none => weld d last true afterText rest
    | some (chunk, isText) =>
      let touches := last.any (!Text.isBlank ·) && chunk.head?.any (!Text.isBlank ·)
      let space : Text := if gap && afterText && isText && touches then " " else ""
      space ++ chunk ++ weld d (chunk.getLast?.or last) false isText rest

/-- Decide for each tag whether it has a partner, as the flags say in order. -/
def settle : List Bool → List Piece → List Piece
  | _, [] => []
  | flags, tag source t :: rest =>
    (if flags.head? = some true then tag source t else stray source) :: settle flags.tail rest
  | flags, p :: rest => p :: settle flags rest

end Piece
end NotebookPages.Markup
