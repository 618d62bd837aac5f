import NotebookPages.Text.Quoted

/-!
Text of TOML tables. A string keeps its backslashes and double quotes bare where a form in single
quotes can hold it; with newlines it is written over several lines.
-/

namespace NotebookPages.Toml

def longestRun (c : Char) (current : Nat) : Text → Nat
  | [] => current
  | d :: rest =>
    if d == c then longestRun c (current + 1) rest else max current (longestRun c 0 rest)

def needsEscape (c : Char) : Bool := (c < ' ' && c != '\t' && c != '\n') || c == '\x7f'

def isLiteral (s : Text) : Bool :=
  s.any (fun c => c == '"' || c == '\\') && !s.any needsEscape &&
    longestRun '\'' 0 s < 3 && s.getLast? != some '\''

def code (c : Char) : Text :=
  let digits := (Text.hex c.toNat).map Char.toUpper
  List.replicate (4 - digits.length) '0' ++ digits

/-- A character in double quotes; newlines stay in a string over several lines. -/
def basicChar (several : Bool) (c : Char) : Text :=
  match c with
  | '\x08' => "\\b"
  | '\t' => "\\t"
  | '\n' => if several then ['\n'] else "\\n"
  | '\x0c' => "\\f"
  | '\r' => "\\r"
  | '"' => "\\\""
  | '\\' => "\\\\"
  | c => if c < ' ' || c == '\x7f' then "\\u" ++ code c else [c]

def quote (s : Text) : Text :=
  let several := s.contains '\n'
  if isLiteral s then
    if several then "'''\n" ++ s ++ "'''"
    else if s.contains '\'' then "'''" ++ s ++ "'''"
    else "'" ++ s ++ "'"
  else if several then "\"\"\"\n" ++ s.flatMap (basicChar true) ++ "\"\"\""
  else "\"" ++ s.flatMap (basicChar false) ++ "\""

def tableText (name : Text) (pairs : List (Text × Text)) : Text :=
  Text.line ("[" ++ name ++ "]") ++
    pairs.flatMap fun (key, value) => Text.line (key ++ " = " ++ value)

end NotebookPages.Toml
