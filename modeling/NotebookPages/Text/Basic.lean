/-!
Texts as lists of characters, with the classes of characters and the ways of cutting a text that
the rest of the library is written in.
-/

namespace NotebookPages

abbrev Text := List Char

/-- A string literal stands for the text it spells. -/
instance : Coe String Text := ⟨String.toList⟩

namespace Text

/-- The characters with the Unicode property White_Space. -/
def isBlank (c : Char) : Bool :=
  let n := c.toNat
  (9 ≤ n && n ≤ 13) || n == 32 || n == 0x85 || n == 0xA0 || n == 0x1680 ||
    (0x2000 ≤ n && n ≤ 0x200A) || n == 0x2028 || n == 0x2029 || n == 0x202F || n == 0x205F ||
    n == 0x3000

def isMarkupBlank (c : Char) : Bool :=
  c == ' ' || c == '\t' || c == '\n' || c == '\x0c' || c == '\r'

def isControl (c : Char) : Bool :=
  let n := c.toNat
  n < 32 || (127 ≤ n && n < 160)

def isLetter (c : Char) : Bool :=
  ('a' ≤ c && c ≤ 'z') || ('A' ≤ c && c ≤ 'Z')

def isDigit (c : Char) : Bool :=
  '0' ≤ c && c ≤ '9'

def isAlphanumeric (c : Char) : Bool :=
  isLetter c || isDigit c

/-- ASCII punctuation: the printable characters that are neither blank nor alphanumeric. -/
def isPunctuation (c : Char) : Bool :=
  '!' ≤ c && c ≤ '~' && !isAlphanumeric c

def asciiLower (c : Char) : Char :=
  if 'A' ≤ c && c ≤ 'Z' then Char.ofNat (c.toNat + 32) else c

def sameLetters (a b : Text) : Bool :=
  a.map asciiLower == b.map asciiLower

def dropEndWhile (p : Char → Bool) (t : Text) : Text :=
  (t.reverse.dropWhile p).reverse

def trimStart (t : Text) : Text := t.dropWhile isBlank
def trimEnd (t : Text) : Text := dropEndWhile isBlank t
def trim (t : Text) : Text := trimEnd (trimStart t)

def allBlank (t : Text) : Bool := t.all isBlank

def split {α : Type} (sep : α → Bool) : List α → List (List α)
  | [] => [[]]
  | c :: rest =>
    if sep c then [] :: split sep rest
    else match split sep rest with
      | [] => [[c]]
      | part :: parts => (c :: part) :: parts

def splitLines (t : Text) : List Text := split (· == '\n') t

/-- The lines with their ends; only the last may lack one. -/
def endedLines : Text → List Text
  | [] => []
  | c :: rest =>
    if c == '\n' then [c] :: endedLines rest
    else match endedLines rest with
      | [] => [[c]]
      | line :: lines => (c :: line) :: lines

/-- A line without the line feed, or carriage return and line feed, that ends it. -/
def withoutEnd (line : Text) : Text :=
  match line.reverse with
  | '\n' :: '\r' :: front => front.reverse
  | '\n' :: front => front.reverse
  | _ => line

/-- The lines without their ends; a final line end opens no further line. -/
def lines (t : Text) : List Text := (endedLines t).map withoutEnd

def wordsBy (sep : Char → Bool) (t : Text) : List Text :=
  (split sep t).filter (!·.isEmpty)

def joinWith (sep : Text) (parts : List Text) : Text := sep.intercalate parts

/-- What stands before and after the first occurrence of a mark. -/
def cut (mark : Text) : Text → Option (Text × Text)
  | [] => if mark.isEmpty then some ([], []) else none
  | c :: rest =>
    match mark.isPrefixOf? (c :: rest) with
    | some after => some ([], after)
    | none => (cut mark rest).map fun (before, after) => (c :: before, after)

def after? (mark t : Text) : Option Text := mark.isPrefixOf? t

def startsWith (t mark : Text) : Bool := mark.isPrefixOf t

def before? (mark t : Text) : Option Text :=
  (mark.reverse.isPrefixOf? t.reverse).map List.reverse

/-- Replace the occurrences of `old`, found from the left and not overlapping; `skip` characters
belong to an occurrence already replaced. -/
def replaceFrom (old new : Text) (skip : Nat) : Text → Text
  | [] => []
  | c :: rest =>
    match skip with
    | n + 1 => replaceFrom old new n rest
    | 0 =>
      if startsWith (c :: rest) old then new ++ replaceFrom old new (old.length - 1) rest
      else c :: replaceFrom old new 0 rest

def replace (old new t : Text) : Text := replaceFrom old new 0 t

/-- What remains of a text after each of its beginnings, the text itself first. -/
def tails : Text → List Text
  | [] => [[]]
  | c :: rest => (c :: rest) :: tails rest

def upTo (s rest : Text) : Text := s.take (s.length - rest.length)

/-- Order by code points, which is also the order of the UTF-8 encodings. -/
def le : Text → Text → Bool
  | [], _ => true
  | _ :: _, [] => false
  | a :: s, b :: t => a < b || (a == b && le s t)

def ofNat (n : Nat) : Text := (toString n).toList
def ofInt (n : Int) : Text := (toString n).toList

def padEnd (width : Nat) (t : Text) : Text := t ++ List.replicate (width - t.length) ' '

def line (t : Text) : Text := t ++ ['\n']

end Text
end NotebookPages
