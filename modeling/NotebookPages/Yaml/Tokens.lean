import NotebookPages.Yaml.Scalar

/-!
The tokens of a YAML text. Indentation opens and closes block collections, and a node that turns out
to be a key has its key token, and the start of its mapping, put in front of it afterwards.
-/

namespace NotebookPages.Yaml

/-- A node that may still turn out to be a key. -/
structure PossibleKey where
  token : Nat
  start : Position
  /-- The node stands where only a key can stand. -/
  required : Bool
  deriving Repr

structure Scanner where
  rest : Text
  position : Position := {}
  tokens : List Token := []
  indent : Int := -1
  outer : List Int := []
  keyAllowed : Bool := true
  /-- The possible key outside flow collections or of the innermost one. -/
  possible : Option PossibleKey := none
  /-- Possible keys around the flow collections, the innermost first. -/
  flows : List (Option PossibleKey) := []
  deriving Repr

namespace Scanner

def inFlow (s : Scanner) : Bool := !s.flows.isEmpty

def push (s : Scanner) (t : Token) : Scanner := { s with tokens := t :: s.tokens }

def moveTo (s : Scanner) (rest : Text) : Scanner :=
  { s with rest, position := s.position.after (Text.upTo s.rest rest) }

def skip (s : Scanner) (n : Nat) (t : Token) : Scanner := (s.moveTo (s.rest.drop n)).push t

/-- Pass over blanks, comments and breaks. A tab is a blank only where no key may begin. -/
def toNextToken : Nat → Scanner → Scanner
  | 0, s => s
  | fuel + 1, s =>
    let s := if s.position.column == 0 && s.rest.head? == some '\ufeff' then s.moveTo (s.rest.drop 1)
      else s
    let isSkipped (c : Char) : Bool := c == ' ' || (c == '\t' && (s.inFlow || !s.keyAllowed))
    let rest := s.rest.dropWhile isSkipped
    let rest := if rest.head? == some '#' then rest.dropWhile (!isBreak ·) else rest
    match rest with
    | [] => s.moveTo []
    | c :: after =>
      if isBreak c then
        let s := s.moveTo after
        toNextToken fuel (if s.inFlow then s else { s with keyAllowed := true })
      else s.moveTo rest

def keyLimit : Nat := 1024

/-- Give up a possible key that has ended without a colon: keys fit on a line and within the limit. -/
def expire (s : Scanner) (key : Option PossibleKey) : Option (Option PossibleKey) :=
  match key with
  | none => some none
  | some k =>
    if k.start.line < s.position.line || k.start.index + keyLimit < s.position.index then
      if k.required then none else some none
    else some (some k)

def expireKeys? (s : Scanner) : Option Scanner := do
  let possible ← s.expire s.possible
  let flows ← s.flows.mapM s.expire
  return { s with possible, flows }

/-- The possible key is none; it may not be one that is required. -/
def dropKey? (s : Scanner) : Option Scanner :=
  if s.possible.any PossibleKey.required then none else some { s with possible := none }

def saveKey? (s : Scanner) : Option Scanner :=
  if s.keyAllowed then do
    let s ← s.dropKey?
    let required := !s.inFlow && s.indent == s.position.column
    return { s with possible := some ⟨s.tokens.length, s.position, required⟩ }
  else some s

def closeBlocks (s : Scanner) (column : Int) : Scanner :=
  if s.inFlow then s
  else
    let rec close (indent : Int) (tokens : List Token) : List Int → Scanner
      | [] => { s with indent, tokens, outer := [] }
      | next :: outer =>
        if column < indent then close next (.blockEnd :: tokens) outer
        else { s with indent, tokens, outer := next :: outer }
    close s.indent s.tokens s.outer

def insert (s : Scanner) (number : Nat) (t : Token) : Scanner :=
  let later := s.tokens.length - number
  { s with tokens := s.tokens.take later ++ t :: s.tokens.drop later }

def openBlock (s : Scanner) (column number : Nat) (t : Token) : Scanner :=
  if s.inFlow || !decide (s.indent < column) then s
  else { s.insert number t with indent := column, outer := s.indent :: s.outer }

def openBlockHere (s : Scanner) (t : Token) : Scanner :=
  s.openBlock s.position.column s.tokens.length t

def endBlocks? (s : Scanner) : Option Scanner := do
  let s ← (s.closeBlocks (-1)).dropKey?
  return { s with keyAllowed := false }

def number? (s : Text) : Option (Nat × Text) :=
  let digits := s.takeWhile Text.isDigit
  if digits.isEmpty || 9 < digits.length then none
  else some (digits.foldl (fun n c => n * 10 + (c.toNat - 48)) 0, s.dropWhile Text.isDigit)

def tagHandle? : Text → Option (Text × Text)
  | '!' :: s =>
    let word := s.takeWhile isWord
    match s.dropWhile isWord with
    | '!' :: rest => some ('!' :: word ++ ['!'], rest)
    | rest => some ('!' :: word, rest)
  | _ => none

def isUriChar (verbatim : Bool) (c : Char) : Bool :=
  isWord c || (";/?:@&=+$.!~*'()".toList.contains c) || (verbatim && (",[]".toList.contains c))

def uriOctet? (s : Text) : Option UInt8 :=
  match s with
  | '%' :: a :: b :: _ => (hexValue? [a, b]).map UInt8.ofNat
  | _ => none

def octetCount? (b : UInt8) : Option Nat :=
  if b < 0x80 then some 1
  else if b &&& 0xE0 == 0xC0 then some 2
  else if b &&& 0xF0 == 0xE0 then some 3
  else if b &&& 0xF8 == 0xF0 then some 4
  else none

/-- The octets of a tag, after skipping the rest of an escape; `pending` octets continue a
character. -/
def tagUri? (verbatim : Bool) (skip pending : Nat) (done : Text) : Text → Option (Text × Text)
  | [] => if pending = 0 then some (done.reverse, []) else none
  | c :: rest =>
    match skip with
    | n + 1 => tagUri? verbatim n pending done rest
    | 0 =>
      if c == '%' then
        match uriOctet? (c :: rest) with
        | none => none
        | some b =>
          let shown := Char.ofNat b.toNat :: done
          if pending = 0 then
            match octetCount? b with
            | none => none
            | some n => tagUri? verbatim 2 (n - 1) shown rest
          else if b &&& 0xC0 == 0x80 then tagUri? verbatim 2 (pending - 1) shown rest
          else none
      else if pending ≠ 0 then none
      else if isUriChar verbatim c then tagUri? verbatim 0 0 (c :: done) rest
      else some (done.reverse, c :: rest)

/-- A tag: its handle, its suffix and what follows. -/
def tag? (s : Text) : Option (Text × Text × Text) :=
  match s with
  | '!' :: '<' :: body => do
    let (suffix, rest) ← tagUri? true 0 0 [] body
    match rest with
    | '>' :: rest => if suffix.isEmpty then none else return ([], suffix, rest)
    | _ => none
  | _ => do
    let (handle, rest) ← tagHandle? s
    if 1 < handle.length && handle.getLast? == some '!' then
      let (suffix, rest) ← tagUri? false 0 0 [] rest
      if suffix.isEmpty then none else return (handle, suffix, rest)
    else
      let (suffix, rest) ← tagUri? false 0 0 [] rest
      let suffix := handle.drop 1 ++ suffix
      if suffix.isEmpty then return ([], ['!'], rest) else return (['!'], suffix, rest)

def directive? (s : Text) : Option (Token × Text) := do
  let name := s.takeWhile isWord
  let rest := s.dropWhile isWord
  if name.isEmpty || !atGap rest then none
  else
    let body := rest.dropWhile isWhite
    let (token, rest) ← if name = ("YAML" : Text) then do
        let (major, rest) ← number? body
        match rest with
        | '.' :: rest => (number? rest).map fun (minor, rest) => (Token.versionDirective major minor, rest)
        | _ => none
      else if name = ("TAG" : Text) then do
        let (handle, rest) ← tagHandle? body
        if handle ≠ ['!'] ∧ handle.getLast? ≠ some '!' then none
        else if !rest.head?.any isWhite then none
        else
          let (expansion, rest) ← tagUri? true 0 0 [] (rest.dropWhile isWhite)
          if expansion.isEmpty || !atGap rest then none
          else some (Token.tagDirective handle expansion, rest)
      else none
    let rest := skipComment rest
    if atBreak rest then return (token, rest.drop 1) else none

def name? (s : Text) : Option (Text × Text) :=
  let name := s.takeWhile isWord
  let rest := s.dropWhile isWord
  if name.isEmpty || !(atGap rest || rest.head?.any ("?:,]\x7d%@`".toList.contains ·)) then none
  else some (name, rest)

def isIndicator (c : Char) : Bool := "-?:,[]\x7b\x7d#&*!|>'\"%@`".toList.contains c

def node? (s : Scanner) (token : Token) (rest : Text) : Option Scanner := do
  let s ← s.saveKey?
  return { (s.moveTo rest).push token with keyAllowed := false }

def openFlow? (s : Scanner) (token : Token) : Option Scanner := do
  let s ← s.saveKey?
  return { s.skip 1 token with keyAllowed := true, possible := none, flows := s.possible :: s.flows }

def closeFlow? (s : Scanner) (token : Token) : Option Scanner := do
  let s ← s.dropKey?
  let s := { s.skip 1 token with keyAllowed := false }
  match s.flows with
  | [] => return s
  | key :: flows => return { s with possible := key, flows }

/-- Scan the mark of a value. It makes a key of the possible key before it. -/
def value? (s : Scanner) : Option Scanner :=
  match s.possible with
  | some k =>
    let s := (s.insert k.token .key).openBlock k.start.column k.token .blockMappingStart
    some { s.skip 1 .value with possible := none, keyAllowed := false }
  | none =>
    if s.inFlow then some { s.skip 1 .value with keyAllowed := false }
    else if !s.keyAllowed then none
    else some { (s.openBlockHere .blockMappingStart).skip 1 .value with keyAllowed := true }

def next? (s : Scanner) (c : Char) (after : Text) : Option Scanner :=
  if s.position.column == 0 && c == '%' then do
    let s ← s.endBlocks?
    let (token, rest) ← directive? after
    return (s.moveTo rest).push token
  else if s.position.column == 0 && atDocumentMark s.rest then do
    let s ← s.endBlocks?
    return s.skip 3 (if c == '-' then .documentStart else .documentEnd)
  else if c == '[' then s.openFlow? .flowSequenceStart
  else if c == '\x7b' then s.openFlow? .flowMappingStart
  else if c == ']' then s.closeFlow? .flowSequenceEnd
  else if c == '\x7d' then s.closeFlow? .flowMappingEnd
  else if c == ',' then do
    let s ← s.dropKey?
    return { s.skip 1 .flowEntry with keyAllowed := true }
  else if c == '-' && atGap after then
    if !s.inFlow && !s.keyAllowed then none
    else do
      let s ← (s.openBlockHere .blockSequenceStart).dropKey?
      return { s.skip 1 .blockEntry with keyAllowed := true }
  else if c == '?' && (s.inFlow || atGap after) then
    if !s.inFlow && !s.keyAllowed then none
    else do
      let s ← (s.openBlockHere .blockMappingStart).dropKey?
      return { s.skip 1 .key with keyAllowed := !s.inFlow }
  else if c == ':' && (s.inFlow || atGap after) then s.value?
  else if c == '*' then do
    let (name, rest) ← name? after
    s.node? (.alias name) rest
  else if c == '&' then do
    let (name, rest) ← name? after
    s.node? (.anchor name) rest
  else if c == '!' then do
    let (handle, suffix, rest) ← tag? s.rest
    if (s.inFlow && rest.head? == some ',') || atGap rest then s.node? (.tag handle suffix) rest
    else none
  else if (c == '|' || c == '>') && !s.inFlow then do
    let s ← s.dropKey?
    let (text, rest) ← scanBlock? (c == '|') s.indent after
    return { (s.moveTo rest).push (.scalar false text) with keyAllowed := true }
  else if c == '\'' || c == '"' then do
    let (text, rest) ← scanQuoted? c 0 [] {} (s.position.column + 1) after
    s.node? (.scalar false text) rest
  else if !isIndicator c && !isWhite c || (c == '-' && !after.head?.any isWhite)
      || (!s.inFlow && (c == '?' || c == ':') && !atGap after) then do
    let scalar ← scanPlain? s.inFlow (s.indent + 1).toNat [] {} s.position.column s.rest
    let s ← s.node? (.scalar true scalar.text) scalar.rest
    return if scalar.broken then { s with keyAllowed := true } else s
  else none

def finish? (s : Scanner) : Option (List Token) := do
  let s ← (s.closeBlocks (-1)).dropKey?
  return s.tokens.reverse

/-- Scan to the end. `fuel` bounds the number of tokens. -/
def run? : Nat → Scanner → Option (List Token)
  | 0, _ => none
  | fuel + 1, s => do
    let s ← (s.toNextToken (s.rest.length + 1)).expireKeys?
    let s := s.closeBlocks s.position.column
    match s.rest with
    | [] => s.finish?
    | c :: after => run? fuel (← s.next? c after)

end Scanner

def Token.ofText? (s : Text) : Option (List Token) :=
  if s.all isAllowed then
    let text := unifyBreaks s
    Scanner.run? (text.length + 1) { rest := text }
  else none

end NotebookPages.Yaml
