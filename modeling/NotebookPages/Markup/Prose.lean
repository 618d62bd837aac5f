import NotebookPages.Markup.Lexeme
import NotebookPages.Markup.Piece

/-!
Reading a prose line as pieces, once and from left to right. Code spans and existing escapes are kept;
what the dialect would read as an expression or as JSX is escaped; tags are set apart, because
their fate depends on the whole document.
-/

namespace NotebookPages.Markup

def imageOmitted : Text := "_(embedded image omitted)_"

def escapeAngle (rest : Text) : Piece × Text :=
  (.text "<" "&lt;" (some .bareAngleBracket), rest)

def readAngle (d : Dialect) (rest : Text) : Piece × Text :=
  let s := '<' :: rest
  match Text.after? "!--" rest with
  | some inner =>
    match Text.cut "-->" inner with
    | none => escapeAngle rest
    | some (body, after) =>
      let source := Text.upTo s after
      match d with
      | .mdx => (.text source (Dialect.mdx.comment (Text.trim body)) (some .htmlComment), after)
      | .markdown => (.plain source, after)
  | none =>
    match rest with
    | '!' :: declaration =>
      match Text.cut ">" declaration with
      | some (_, after) =>
        if declaration.head?.any Text.isLetter then (.dropped (Text.upTo s after), after)
        else escapeAngle rest
      | none => escapeAngle rest
    | _ =>
      match autolink? s with
      | some (url, after) =>
        let source := Text.upTo s after
        match d with
        | .mdx => (.text source ("[" ++ url ++ "](" ++ url ++ ")") none, after)
        | .markdown => (.plain source, after)
      | none =>
        if rest.head?.any fun c => Text.isLetter c || c == '/' then
          match Tag.read? s with
          | some (tag, after) =>
            let source := Text.upTo s after
            if tag.isDataImage then (.text source imageOmitted (some .dataUrl), after)
            else (.tag source tag, after)
          | none => escapeAngle rest
        else match d with
          | .mdx => escapeAngle rest
          | .markdown => (.plain "<", rest)

/-- The piece that begins with `c`, and how many characters of `rest` belong to it. `quoting` says
that only blanks and `>` precede it on the line, `before` is the character before it. -/
def nextPiece (d : Dialect) (quoting : Bool) (before : Option Char) (c : Char) (rest : Text) :
    Piece × Nat :=
  let s := c :: rest
  let verbatim (after : Text) : Piece × Nat :=
    (.plain (Text.upTo s after), rest.length - after.length)
  let replaced (written : Text) (problem : Problem) : Piece × Nat :=
    (.text [c] written (some problem), 0)
  match c, d with
  | '\\', _ => if rest.head?.any Text.isPunctuation then verbatim rest.tail else (.plain [c], 0)
  | '`', _ => verbatim (afterCode s)
  | '\x7b', .mdx =>
    match afterComment? s with
    | some after => verbatim after
    | none => replaced ['\\', c] .unescapedBrace
  | '\x7d', .mdx => replaced ['\\', c] .unescapedBrace
  | '<', _ =>
    let (piece, after) := readAngle d rest
    (piece, rest.length - after.length)
  | '>', .mdx =>
    if quoting || before.any Text.isLetter || rest.head?.any Text.isLetter then (.plain [c], 0)
    else replaced "&gt;" .bareAngleBracket
  | _, _ =>
    let link := if c == '!' then afterDataLink? rest else if c == '[' then afterDataLink? s else none
    match link with
    | some after =>
      (.text (Text.upTo s after) imageOmitted (some .dataUrl), rest.length - after.length)
    | none => (.plain [c], 0)

/-- The pieces of the rest of a line, of which the first `skip` characters belong to a piece already
read. -/
def scanFrom (d : Dialect) (skip : Nat) (quoting : Bool) (before : Option Char) : Text → List Piece
  | [] => []
  | c :: rest =>
    let quoting' := quoting && (Text.isBlank c || c == '>')
    match skip with
    | n + 1 => scanFrom d n quoting' (some c) rest
    | 0 =>
      let (piece, more) := nextPiece d quoting before c rest
      piece :: scanFrom d more quoting' (some c) rest

def scanLine (d : Dialect) (line : Text) : List Piece := scanFrom d 0 true none line

end NotebookPages.Markup
