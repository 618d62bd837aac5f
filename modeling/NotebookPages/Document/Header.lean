import NotebookPages.Text.Basic

/-!
The header of a document: the lines between two delimiters at its very start, which hold its fields.
A document is its header, if it has one, followed by its body, and nothing lies in between.
-/

namespace NotebookPages

structure Header where
  title : Text
  description : Text
  position : Option Int
  deriving DecidableEq, Repr

namespace Header

def delimiter : Text := "---"

def escapeChar (c : Char) : Text :=
  if c == '\\' || c == '"' then ['\\', c] else [c]

/-- A value on one line: runs of blanks and control characters become single spaces. -/
def escape (value : Text) : Text :=
  Text.joinWith " "
    ((Text.wordsBy (fun c => Text.isBlank c || Text.isControl c) value).map
      (·.flatMap escapeChar))

def field (key value : Text) : Text := Text.line (key ++ ": \"" ++ escape value ++ "\"")

def render (h : Header) : Text :=
  Text.line delimiter ++ field "title" h.title ++ field "description" h.description ++
    (match h.position with
      | some n => Text.line ("sidebar_position: " ++ Text.ofInt n)
      | none => []) ++
    Text.line delimiter ++ ['\n']

end Header

namespace Document

/-- The lines up to and including the first delimiter, and the lines after it. -/
def cutClosing : List Text → Option (List Text × List Text)
  | [] => none
  | line :: rest =>
    if Text.trimEnd line = Header.delimiter then some ([line], rest)
    else (cutClosing rest).map fun (front, back) => (line :: front, back)

/-- What follows the delimiter line that opens a header, with that line. -/
def opening? (text : Text) : Option (Text × Text) :=
  [("---\n" : Text), "---\r\n"].findSome? fun mark =>
    (Text.after? mark text).map fun rest => (mark, rest)

/-- The header of a document, delimiters included, and the body. -/
def split (text : Text) : Option Text × Text :=
  match opening? text with
  | none => (none, text)
  | some (mark, rest) =>
    match cutClosing (Text.endedLines rest) with
    | none => (none, text)
    | some (front, back) => (some (mark ++ front.flatten), back.flatten)

def hasHeader (text : Text) : Bool := (split text).1.isSome

end Document
end NotebookPages
