import NotebookPages.Text.Basic

/-!
Tokens of YAML, the characters that delimit them, and the position of a character in a text. Line ends
are unified before a text is scanned, so that a line feed and the two Unicode separators are
the only breaks.
-/

namespace NotebookPages.Yaml

inductive Token where
  | versionDirective (major minor : Nat)
  | tagDirective (handle expansion : Text)
  | documentStart
  | documentEnd
  | blockSequenceStart
  | blockMappingStart
  | blockEnd
  | flowSequenceStart
  | flowSequenceEnd
  | flowMappingStart
  | flowMappingEnd
  | blockEntry
  | flowEntry
  | key
  | value
  | alias (name : Text)
  | anchor (name : Text)
  | tag (handle suffix : Text)
  | scalar (plain : Bool) (text : Text)
  deriving DecidableEq, Repr

def isAllowed (c : Char) : Bool :=
  let n := c.toNat
  n == 0x09 || n == 0x0A || n == 0x0D || (0x20 ≤ n && n ≤ 0x7E) || n == 0x85 ||
    (0xA0 ≤ n && n ≤ 0xD7FF) || (0xE000 ≤ n && n ≤ 0xFFFD) || 0x10000 ≤ n

/-- Every line end but the Unicode separators becomes a line feed. -/
def unifyBreaks : Text → Text
  | [] => []
  | '\r' :: rest => if rest.head? == some '\n' then unifyBreaks rest else '\n' :: unifyBreaks rest
  | '\u0085' :: rest => '\n' :: unifyBreaks rest
  | c :: rest => c :: unifyBreaks rest

def isBreak (c : Char) : Bool := c == '\n' || c == '\u2028' || c == '\u2029'

def isWhite (c : Char) : Bool := c == ' ' || c == '\t'

def isWord (c : Char) : Bool := Text.isAlphanumeric c || c == '_' || c == '-'

def atBreak (s : Text) : Bool := s.head?.all isBreak

def atGap (s : Text) : Bool := s.head?.all fun c => isWhite c || isBreak c

def atDocumentMark (s : Text) : Bool :=
  [("---" : Text), "..."].any fun mark => (Text.after? mark s).any atGap

structure Position where
  index : Nat := 0
  line : Nat := 0
  column : Nat := 0
  deriving DecidableEq, Repr

def Position.next (p : Position) (c : Char) : Position :=
  if isBreak c then ⟨p.index + 1, p.line + 1, 0⟩ else ⟨p.index + 1, p.line, p.column + 1⟩

def Position.after (p : Position) (s : Text) : Position := s.foldl Position.next p

/-- Line breaks between two words: a single line feed becomes a space, and of several the first is
left out. -/
def fold (first : Text) (others : Text) : Text :=
  if first = ['\n'] then if others.isEmpty then [' '] else others else first ++ others

end NotebookPages.Yaml
