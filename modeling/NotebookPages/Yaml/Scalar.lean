import NotebookPages.Yaml.Token

/-!
Scanning of scalars. Each scan gives the content and what follows it; blanks and breaks are held back
until it is known whether the scalar goes on after them.
-/

namespace NotebookPages.Yaml

/-- Blanks and breaks that were read and not yet written. -/
structure Gap where
  blanks : Text := []
  firstBreak : Option Text := none
  otherBreaks : Text := []
  deriving DecidableEq, Repr

namespace Gap

def isEmpty (g : Gap) : Bool := g.blanks.isEmpty && g.firstBreak.isNone

def content (g : Gap) : Text :=
  match g.firstBreak with
  | none => g.blanks
  | some first => fold first g.otherBreaks

/-- Blanks after a break do not count. -/
def addBlank (g : Gap) (c : Char) : Gap :=
  if g.firstBreak.isSome then g else { g with blanks := g.blanks ++ [c] }

def addBreak (g : Gap) (c : Char) : Gap :=
  match g.firstBreak with
  | none => { g with blanks := [], firstBreak := some [c] }
  | some _ => { g with otherBreaks := g.otherBreaks ++ [c] }

end Gap

structure PlainScalar where
  text : Text
  rest : Text
  broken : Bool
  deriving Repr

def isFlowEnd (c : Char) : Bool := c == ',' || c == '[' || c == ']' || c == '\x7b' || c == '\x7d'

/-- A plain scalar. `done` holds what was written in reverse and `column` the column of the next
character; lines that go on with the scalar are indented to `indent` at least. -/
def scanPlain? (inFlow : Bool) (indent : Nat) (done : Text) (gap : Gap) (column : Nat) :
    Text → Option PlainScalar
  | [] => some ⟨done.reverse, [], gap.firstBreak.isSome⟩
  | c :: rest =>
    let stop : Option PlainScalar := some ⟨done.reverse, c :: rest, gap.firstBreak.isSome⟩
    if isWhite c then
      if gap.firstBreak.isSome && column < indent && c == '\t' then none
      else scanPlain? inFlow indent done (gap.addBlank c) (column + 1) rest
    else if isBreak c then scanPlain? inFlow indent done (gap.addBreak c) 0 rest
    else if !gap.isEmpty && (!inFlow && column < indent) then stop
    else if !gap.isEmpty && (c == '#' || (column == 0 && atDocumentMark (c :: rest))) then stop
    else if inFlow && c == ':' && rest.head?.any (fun d => d == '?' || isFlowEnd d) then none
    else if (c == ':' && atGap rest) || (inFlow && isFlowEnd c) then stop
    else scanPlain? inFlow indent (c :: gap.content.reverse ++ done) {} (column + 1) rest

def hexValue? (digits : Text) : Option Nat :=
  digits.foldl (fun value c => do
    let n ← value
    if '0' ≤ c && c ≤ '9' then some (n * 16 + (c.toNat - 48))
    else if 'a' ≤ c && c ≤ 'f' then some (n * 16 + (c.toNat - 87))
    else if 'A' ≤ c && c ≤ 'F' then some (n * 16 + (c.toNat - 55))
    else none) (some 0)

def hexChar? (count : Nat) (s : Text) : Option Char := do
  let digits := s.take count
  let n ← hexValue? digits
  if digits.length = count ∧ n.isValidChar then some (Char.ofNat n) else none

def escape? : Text → Option (Char × Nat)
  | [] => none
  | c :: rest =>
    match c with
    | '0' => some ('\x00', 1)
    | 'a' => some ('\x07', 1)
    | 'b' => some ('\x08', 1)
    | 't' => some ('\t', 1)
    | '\t' => some ('\t', 1)
    | 'n' => some ('\n', 1)
    | 'v' => some ('\x0b', 1)
    | 'f' => some ('\x0c', 1)
    | 'r' => some ('\r', 1)
    | 'e' => some ('\x1b', 1)
    | ' ' => some (' ', 1)
    | '"' => some ('"', 1)
    | '/' => some ('/', 1)
    | '\\' => some ('\\', 1)
    | 'N' => some ('\u0085', 1)
    | '_' => some ('\u00a0', 1)
    | 'L' => some ('\u2028', 1)
    | 'P' => some ('\u2029', 1)
    | 'x' => (hexChar? 2 rest).map (·, 3)
    | 'u' => (hexChar? 4 rest).map (·, 5)
    | 'U' => (hexChar? 8 rest).map (·, 9)
    | _ => none

def scanQuoted? (quote : Char) (skip : Nat) (done : Text) (gap : Gap) (column : Nat) :
    Text → Option (Text × Text)
  | [] => none
  | c :: rest =>
    match skip with
    | n + 1 => scanQuoted? quote n done gap (if isBreak c then 0 else column + 1) rest
    | 0 =>
      let write (shown : Char) (skip : Nat) : Option (Text × Text) :=
        scanQuoted? quote skip (shown :: gap.content.reverse ++ done) {} (column + 1) rest
      if isWhite c then scanQuoted? quote 0 done (gap.addBlank c) (column + 1) rest
      else if isBreak c then scanQuoted? quote 0 done (gap.addBreak c) 0 rest
      else if column == 0 && atDocumentMark (c :: rest) then none
      else if c == quote then
        if quote == '\'' && rest.head? == some '\'' then write '\'' 1
        else some ((gap.content.reverse ++ done).reverse, rest)
      else if quote == '"' && c == '\\' then
        if rest.head?.any isBreak then
          scanQuoted? quote 1 (gap.content.reverse ++ done) ⟨[], some [], []⟩ 0 rest
        else match escape? rest with
          | some (shown, length) => write shown length
          | none => none
      else write c 0

inductive Chomping where
  | strip
  | clip
  | keep
  deriving DecidableEq, Repr

/-- The indentation and the empty lines before a line of a block scalar: the deepest indentation
seen, the breaks, the column and the rest. `indent` is zero while it is not known. -/
def scanEmptyLines? (indent deepest column : Nat) (breaks : Text) :
    Text → Option (Nat × Text × Nat × Text)
  | [] => some (max deepest column, breaks, column, [])
  | c :: rest =>
    let inside := indent == 0 || column < indent
    if inside && c == ' ' then scanEmptyLines? indent deepest (column + 1) breaks rest
    else if inside && c == '\t' then none
    else if isBreak c then scanEmptyLines? indent (max deepest column) 0 (breaks ++ [c]) rest
    else some (max deepest column, breaks, column, c :: rest)

structure BlockText where
  text : Text := []
  lineEnd : Text := []
  blankLine : Bool := false
  deriving Repr

/-- The breaks before a line that does or does not begin with a blank. -/
def BlockText.join (b : BlockText) (literal blank : Bool) (breaks : Text) : Text :=
  if !literal && b.lineEnd == ['\n'] && !b.blankLine && !blank then
    b.text ++ (if breaks.isEmpty then [' '] else []) ++ breaks
  else b.text ++ b.lineEnd ++ breaks

def BlockText.finish (b : BlockText) (chomping : Chomping) (breaks : Text) : Text :=
  match chomping with
  | .strip => b.text
  | .clip => b.text ++ b.lineEnd
  | .keep => b.text ++ b.lineEnd ++ breaks

/-- The lines of a block scalar, the next of which begins in `column` after `breaks`. -/
def scanBlockLines? (literal : Bool) (chomping : Chomping) (indent : Nat) :
    Nat → BlockText → Text → Nat → Text → Option (Text × Text)
  | 0, _, _, _, _ => none
  | fuel + 1, b, breaks, column, s =>
    if column ≠ indent ∨ s.isEmpty then some (b.finish chomping breaks, s)
    else
      let blank := s.head?.any isWhite
      let line := s.takeWhile (!isBreak ·)
      let rest := s.dropWhile (!isBreak ·)
      let b' : BlockText := ⟨b.join literal blank breaks ++ line, rest.take 1, blank⟩
      match scanEmptyLines? indent 0 (if rest.isEmpty then column + line.length else 0) []
          (rest.drop 1) with
      | none => none
      | some (_, breaks, column, s) => scanBlockLines? literal chomping indent fuel b' breaks column s

def blockHeader? (s : Text) : Option (Chomping × Nat × Text) :=
  let chomping? : Text → Option (Chomping × Text)
    | '+' :: rest => some (.keep, rest)
    | '-' :: rest => some (.strip, rest)
    | _ => none
  let indent? : Text → Option (Option (Nat × Text))
    | c :: rest =>
      if c == '0' then none
      else if Text.isDigit c then some (some (c.toNat - 48, rest))
      else some none
    | [] => some none
  match chomping? s with
  | some (chomping, rest) =>
    match indent? rest with
    | none => none
    | some none => some (chomping, 0, rest)
    | some (some (n, rest)) => some (chomping, n, rest)
  | none =>
    match indent? s with
    | none => none
    | some none => some (.clip, 0, s)
    | some (some (n, rest)) =>
      let (chomping, rest) := (chomping? rest).getD (.clip, rest)
      some (chomping, n, rest)

def skipComment (s : Text) : Text :=
  match s.dropWhile isWhite with
  | '#' :: comment => comment.dropWhile (!isBreak ·)
  | rest => rest

def scanBlock? (literal : Bool) (parent : Int) (s : Text) : Option (Text × Text) := do
  let (chomping, increment, rest) ← blockHeader? s
  let rest := skipComment rest
  if !atBreak rest then none
  else
    let given := if increment = 0 then 0 else (max parent 0).toNat + increment
    let (deepest, breaks, column, rest) ← scanEmptyLines? given 0 0 [] (rest.drop 1)
    let indent := if given = 0 then max (max deepest (parent + 1).toNat) 1 else given
    scanBlockLines? literal chomping indent (rest.length + 1) {} breaks column rest

end NotebookPages.Yaml
