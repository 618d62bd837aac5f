import NotebookPages.Text.Basic

/-!
Terminal escape sequences: control sequences (colours, cursor movement) and operating-system
commands (titles, links). Tracebacks are full of them and pages show none.
-/

namespace NotebookPages.Text

def escapeChar : Char := '\x1b'
def bell : Char := '\x07'

def isParameter (c : Char) : Bool := isDigit c || c == ';' || c == '?'
def isIntermediate (c : Char) : Bool := ' ' ≤ c && c ≤ '/'
def isFinal (c : Char) : Bool := '@' ≤ c && c ≤ '~'

def afterEscape? : Text → Option Text
  | '\x1b' :: '[' :: body =>
    match (body.dropWhile isParameter).dropWhile isIntermediate with
    | c :: rest => if isFinal c then some rest else none
    | [] => none
  | '\x1b' :: ']' :: body =>
    match body.dropWhile (fun c => c != bell && c != escapeChar) with
    | '\x07' :: rest => some rest
    | '\x1b' :: '\\' :: rest => some rest
    | _ => none
  | _ => none

/-- Remove the escape sequences after skipping what is left of one. -/
def plainFrom (skip : Nat) : Text → Text
  | [] => []
  | c :: rest =>
    match skip with
    | n + 1 => plainFrom n rest
    | 0 =>
      match afterEscape? (c :: rest) with
      | some after => plainFrom (rest.length - after.length) rest
      | none => c :: plainFrom 0 rest

/-- The text without its terminal escape sequences, found from the left. -/
def plain (t : Text) : Text := plainFrom 0 t

end NotebookPages.Text
