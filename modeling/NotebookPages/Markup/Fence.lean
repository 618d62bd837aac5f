import NotebookPages.Text.Basic

/-!
Fenced code blocks. A fence opens with three or more backticks or tildes and closes with a line of at
least as many of the same marker and nothing else; in between all lines are code.
-/

namespace NotebookPages

structure Fence where
  marker : Char
  length : Nat
  deriving DecidableEq, Repr

namespace Fence

/-- The fence that a line of prose opens. A backtick fence carries no backtick in its info string. -/
def open? (line : Text) : Option Fence :=
  match Text.trimStart line with
  | [] => none
  | marker :: rest =>
    if marker == '`' || marker == '~' then
      let length := (rest.takeWhile (· == marker)).length + 1
      let info := rest.dropWhile (· == marker)
      if length < 3 || (marker == '`' && info.contains '`') then none else some ⟨marker, length⟩
    else none

def closes (fence : Fence) (line : Text) : Bool :=
  let bare := Text.trim line
  fence.length ≤ bare.length && bare.all (· == fence.marker)

/-- The fence that holds the line after `line`, given the one that holds `line`. -/
def next (held : Option Fence) (line : Text) : Option Fence :=
  match held with
  | some fence => if fence.closes line then none else some fence
  | none => open? line

def after (held : Option Fence) (lines : List Text) : Option Fence := lines.foldl next held

/-- The line neither lies in a fence nor delimits one. -/
def isProse (held : Option Fence) (line : Text) : Bool := held.isNone && (open? line).isNone

/-- The number of the line that opens the fence left open at the end, counted from `number`;
`opened` is where the current one was opened. -/
def openLine? (held : Option Fence) (opened : Option Nat) (number : Nat) : List Text → Option Nat
  | [] => opened
  | line :: rest =>
    match next held line with
    | none => openLine? none none (number + 1) rest
    | some fence =>
      openLine? (some fence) (if held.isSome then opened else some number) (number + 1) rest

/-- The longest run of backticks, given the length of the run that ends before the text. -/
def longestRun (current : Nat) : Text → Nat
  | [] => current
  | c :: rest =>
    if c == '`' then longestRun (current + 1) rest else max current (longestRun 0 rest)

/-- Backticks that `content` cannot close early. -/
def around (content : Text) : Text := List.replicate (max (longestRun 0 content + 1) 3) '`'

/-- A fenced block of `content`, whose final line ends are left out. -/
def block (info content : Text) : Text :=
  let fence := around content
  let body := Text.dropEndWhile (fun c => c == '\n' || c == '\r') content
  if body.isEmpty then fence ++ info ++ "\n" ++ fence
  else fence ++ info ++ "\n" ++ body ++ "\n" ++ fence

end Fence
end NotebookPages
