import NotebookPages.Toml.Scalar

/-!
Reading TOML documents: expressions line by line, each a header or a key with its value.
-/

namespace NotebookPages.Toml

/-- How deep values may be nested, and one more than the parts a key may have. -/
def depthLimit : Nat := 80

def isBareChar (c : Char) : Bool := Text.isAlphanumeric c || c == '_' || c == '-'

def keyPart? (s : Text) : Option (Text × Text) :=
  match s with
  | '"' :: rest => basicString? 0 [] rest
  | '\'' :: rest => literalString? rest
  | _ =>
    let bare := s.takeWhile isBareChar
    if bare.isEmpty then none else some (bare, s.dropWhile isBareChar)

def keyParts? : Nat → Text → Option (List Text × Text)
  | 0, _ => none
  | fuel + 1, s => do
    let (part, rest) ← keyPart? (s.dropWhile isSpace)
    match rest.dropWhile isSpace with
    | '.' :: more =>
      let (parts, rest) ← keyParts? fuel more
      return (part :: parts, rest)
    | rest => return ([part], rest)

def key? (s : Text) : Option (List Text × Text × Text) := do
  let (parts, rest) ← keyParts? depthLimit s
  if depthLimit ≤ parts.length then none
  else match parts.getLast? with
    | some last => return (parts.dropLast, last, rest)
    | none => none

def afterComment? (s : Text) : Option Text :=
  match s with
  | '#' :: rest =>
    let rest := rest.dropWhile isPlain
    if rest.isEmpty || (afterNewline? rest).isSome then some rest else none
  | _ => some s

def afterLine? (s : Text) : Option Text := do
  let rest ← afterComment? (s.dropWhile isSpace)
  if rest.isEmpty then some [] else afterNewline? rest

def skipLines : Nat → Text → Option Text
  | 0, s => some s
  | fuel + 1, s => do
    let rest ← afterComment? (s.dropWhile isSpace)
    match afterNewline? rest with
    | some rest => skipLines fuel rest
    | none => return rest

mutual

def value? : Nat → Nat → Text → Option (Value × Text)
  | 0, _, _ => none
  | fuel + 1, depth, s =>
    match s with
    | '[' :: rest =>
      if depth = 0 then none
      else (items? fuel (depth - 1) rest).map fun (items, rest) => (.array items, rest)
    | '\x7b' :: rest =>
      if depth = 0 then none
      else match rest.dropWhile isSpace with
        | '\x7d' :: rest => some (.table [], rest)
        | rest =>
          (pairs? fuel (depth - 1) [] rest).map fun (entries, rest) =>
            (.table (Item.toValues entries), rest)
    | _ => scalar? s

def items? : Nat → Nat → Text → Option (List Value × Text)
  | 0, _, _ => none
  | fuel + 1, depth, s =>
    match skipLines (s.length + 1) s with
    | none => none
    | some (']' :: rest) => some ([], rest)
    | some s =>
      match value? fuel depth s with
      | none => none
      | some (item, rest) =>
        match skipLines (rest.length + 1) rest with
        | some (',' :: rest) =>
          (items? fuel depth rest).map fun (items, rest) => (item :: items, rest)
        | some (']' :: rest) => some ([item], rest)
        | _ => none

/-- The pairs of an inline table after those in `entries`, up to its end. -/
def pairs? : Nat → Nat → Entries → Text → Option (Entries × Text)
  | 0, _, _, _ => none
  | fuel + 1, depth, entries, s =>
    match key? s with
    | some (path, key, '=' :: rest) =>
      match value? fuel depth (rest.dropWhile isSpace) with
      | none => none
      | some (v, rest) =>
        match entries.add? path key v with
        | none => none
        | some entries =>
          match rest.dropWhile isSpace with
          | ',' :: rest => pairs? fuel depth entries rest
          | '\x7d' :: rest => some (entries, rest)
          | _ => none
    | _ => none

end

/-- A document that is being read: the tables finished so far, and the one that lines add to. -/
structure Reading where
  root : Entries := []
  current : Entries := []
  header : Option (List Text × Text) := none
  several : Bool := false

namespace Reading

def finish? (r : Reading) : Option Entries :=
  match r.header with
  | none => some r.current
  | some (path, key) =>
    Entries.update .implied (fun _ es =>
      if r.several then
        match es.lookup key with
        | none => some (es ++ [(key, .tables [r.current])])
        | some (.tables list) => some (Entries.set key (.tables (r.current :: list)) es)
        | some _ => none
      else some (es ++ [(key, .table .header r.current)])) .header path r.root

/-- Begin a table of its own. It takes over what an implied table of its name holds. -/
def openTable? (r : Reading) (path : List Text) (key : Text) : Option Reading := do
  let root ← r.finish?
  let held? : Entries → Option Entries := fun es =>
    match es.lookup key with
    | none => some []
    | some (.table .implied sub) => some sub
    | some _ => none
  let root' ← Entries.update .implied (fun _ es =>
    (held? es).map fun _ => es.filter (·.1 ≠ key)) .header path root
  let current ← within? path root
  return ⟨root', ← held? current, some (path, key), false⟩
where
  within? : List Text → Entries → Option Entries
    | [], es => some es
    | k :: path, es =>
      match es.lookup k with
      | none => some []
      | some (.value _) => none
      | some (.tables list) => within? path (list.head?.getD [])
      | some (.table _ sub) => within? path sub

/-- Begin a further table under a header. -/
def openTables? (r : Reading) (path : List Text) (key : Text) : Option Reading := do
  let root ← r.finish?
  let root ← Entries.update .implied (fun _ es =>
    match es.lookup key with
    | none => some es
    | some (.tables _) => some es
    | some _ => none) .header path root
  return ⟨root, [], some (path, key), true⟩

def expression? (r : Reading) (s : Text) : Option (Reading × Text) :=
  match s with
  | '[' :: '[' :: rest => do
    let (path, key, rest) ← key? rest
    match rest with
    | ']' :: ']' :: rest => return (← r.openTables? path key, ← afterLine? rest)
    | _ => none
  | '[' :: rest => do
    let (path, key, rest) ← key? rest
    match rest with
    | ']' :: rest => return (← r.openTable? path key, ← afterLine? rest)
    | _ => none
  | _ => do
    let (path, key, rest) ← key? s
    let (v, rest) ← value? (rest.length + 1) (depthLimit - 1)
      ((← after? '=' rest).dropWhile isSpace)
    let rest ← afterLine? rest
    return ({ r with current := ← r.current.add? path key v }, rest)

/-- Read to the end. `fuel` bounds the number of expressions. -/
def run? : Nat → Reading → Text → Option Reading
  | 0, _, _ => none
  | fuel + 1, r, s =>
    match skipLines (s.length + 1) s with
    | none => none
    | some [] => some r
    | some s =>
      match r.expression? s with
      | none => none
      | some (r, rest) => run? fuel r rest

end Reading

/-- The table that a document spells. A mark of the byte order may precede it. -/
def read? (s : Text) : Option Value := do
  let s := (after? '\ufeff' s).getD s
  let r ← Reading.run? (s.length + 1) {} s
  return .table (Item.toValues (← r.finish?))

end NotebookPages.Toml
