import NotebookPages.Yaml.Tokens

/-!
The node tree of a YAML document. An alias is a slot; the anchored nodes are kept with their slots.
Slots are numbered by how many different names have been anchored before, so that a name that is
anchored again may share the slot of a later one; then the later node holds it.
-/

namespace NotebookPages.Yaml

inductive Node where
  | alias (slot : Nat)
  | scalar (tag : Option Text) (plain : Bool) (text : Text)
  | sequence (tag : Option Text) (items : List Node)
  | mapping (tag : Option Text) (pairs : List (Node × Node))
  deriving Repr

structure Anchored where
  slot : Nat
  start : Nat
  node : Node
  deriving Repr

structure Composer where
  tokens : List Token
  handles : List (Text × Text) := []
  /-- The slots of the names anchored so far. -/
  names : List (Text × Nat) := []
  anchored : List Anchored := []
  /-- How many events there were: one for a scalar or alias, two for a collection. -/
  events : Nat := 0
  deriving Repr

abbrev Compose := StateT Composer Option

namespace Composer

def peek : Compose (Option Token) := do return (← get).tokens.head?

def advance : Compose Unit := modify fun c => { c with tokens := c.tokens.drop 1 }

def take (t : Token) : Compose Bool := do
  if (← peek) = some t then
    advance
    return true
  else return false

def event : Compose Nat := do
  let n := (← get).events
  modify fun c => { c with events := n + 1 }
  return n

def nextIn (ts : List Token) : Compose Bool := do return ((← peek).any ts.contains)

def nextInOrEnd (ts : List Token) : Compose Bool := do return ((← peek).all ts.contains)

def emptyScalar : Compose Node := do
  let _ ← event
  return .scalar none true []

def resolveTag (handle suffix : Text) : Compose Text := do
  if handle.isEmpty then return suffix
  else match (← get).handles.lookup handle with
    | some expansion => return expansion ++ suffix
    | none => failure

def properties : Compose (Option Text × Option Text) := do
  match ← peek with
  | some (.anchor name) =>
    advance
    match ← peek with
    | some (.tag handle suffix) =>
      advance
      return (some name, some (← resolveTag handle suffix))
    | _ => return (some name, none)
  | some (.tag handle suffix) =>
    advance
    let tag ← resolveTag handle suffix
    match ← peek with
    | some (.anchor name) =>
      advance
      return (some name, some tag)
    | _ => return (none, some tag)
  | _ => return (none, none)

def addName (name : Text) : Compose Nat := do
  let names := (← get).names
  let slot := names.length
  modify fun c => { c with names := (name, slot) :: names.filter (·.1 ≠ name) }
  return slot

def scalarTag (tag : Option Text) : Option Text := if tag = some ['!'] then none else tag

mutual

/-- The next node. In a block context it may be a block collection, and where `indentless` is set also
a sequence that is not indented. -/
def node (block indentless : Bool) : Nat → Compose Node
  | 0 => failure
  | fuel + 1 => do
    match ← peek with
    | some (.alias name) =>
      advance
      let _ ← event
      match (← get).names.lookup name with
      | some slot => return .alias slot
      | none => failure
    | _ =>
      let (anchor, tag) ← properties
      let start ← event
      let slot ← match anchor with
        | some name => some <$> addName name
        | none => pure none
      let n ← content block indentless (anchor.isSome || tag.isSome) tag fuel
      if let some slot := slot then
        modify fun c => { c with anchored := ⟨slot, start, n⟩ :: c.anchored }
      return n

/-- The node after its properties; with some, it may be empty. -/
def content (block indentless described : Bool) (tag : Option Text) : Nat → Compose Node
  | 0 => failure
  | fuel + 1 => do
    match ← peek with
    | some (.scalar plain text) =>
      advance
      return .scalar (scalarTag tag) plain text
    | some .flowSequenceStart =>
      advance
      let items ← flowItems true fuel
      let _ ← event
      return .sequence tag items
    | some .flowMappingStart =>
      advance
      let pairs ← flowPairs true fuel
      let _ ← event
      return .mapping tag pairs
    | next =>
      if indentless ∧ next = some .blockEntry then
        let items ← looseItems fuel
        let _ ← event
        return .sequence tag items
      else if block ∧ next = some .blockSequenceStart then
        advance
        let items ← blockItems fuel
        let _ ← event
        return .sequence tag items
      else if block ∧ next = some .blockMappingStart then
        advance
        let pairs ← blockPairs fuel
        let _ ← event
        return .mapping tag pairs
      else if described then return .scalar tag true []
      else failure

def blockItems : Nat → Compose (List Node)
  | 0 => failure
  | fuel + 1 => do
    if ← take .blockEntry then
      let item ← if ← nextIn [.blockEntry, .blockEnd] then emptyScalar else node true false fuel
      return item :: (← blockItems fuel)
    else if ← take .blockEnd then return []
    else failure

def looseItems : Nat → Compose (List Node)
  | 0 => failure
  | fuel + 1 => do
    if ← take .blockEntry then
      let item ← if ← nextIn [.blockEntry, .key, .value, .blockEnd] then emptyScalar
        else node true false fuel
      return item :: (← looseItems fuel)
    else return []

def blockPairs : Nat → Compose (List (Node × Node))
  | 0 => failure
  | fuel + 1 => do
    if ← take .key then
      let key ← if ← nextIn [.key, .value, .blockEnd] then emptyScalar else node true true fuel
      let value ← if ← take .value then do
          if ← nextIn [.key, .value, .blockEnd] then emptyScalar else node true true fuel
        else emptyScalar
      return (key, value) :: (← blockPairs fuel)
    else if ← take .blockEnd then return []
    else failure

/-- The items of a flow sequence up to its end. A pair among them is a mapping of its own; one whose
key is missing loses the token after the key mark. -/
def flowItems (first : Bool) : Nat → Compose (List Node)
  | 0 => failure
  | fuel + 1 => do
    if ← take .flowSequenceEnd then return []
    else
      unless first do
        unless ← take .flowEntry do failure
      if ← take .key then
        let _ ← event
        let key ← if ← nextIn [.value, .flowEntry, .flowSequenceEnd] then do
            advance
            emptyScalar
          else node false false fuel
        let value ← if ← take .value then do
            if ← nextIn [.flowEntry, .flowSequenceEnd] then emptyScalar else node false false fuel
          else emptyScalar
        let _ ← event
        return .mapping none [(key, value)] :: (← flowItems false fuel)
      else if ← take .flowSequenceEnd then return []
      else
        let item ← node false false fuel
        return item :: (← flowItems false fuel)

def flowPairs (first : Bool) : Nat → Compose (List (Node × Node))
  | 0 => failure
  | fuel + 1 => do
    if ← take .flowMappingEnd then return []
    else
      unless first do
        unless ← take .flowEntry do failure
      if ← take .key then
        let key ← if ← nextIn [.value, .flowEntry, .flowMappingEnd] then emptyScalar
          else node false false fuel
        let value ← if ← take .value then do
            if ← nextIn [.flowEntry, .flowMappingEnd] then emptyScalar else node false false fuel
          else emptyScalar
        return (key, value) :: (← flowPairs false fuel)
      else if ← take .flowMappingEnd then return []
      else
        let key ← node false false fuel
        let value ← emptyScalar
        return (key, value) :: (← flowPairs false fuel)

end

/-- Directives before a document: at most one version, which must be 1.1 or 1.2, and handles, each
defined once. -/
def directives (versioned : Bool) : List Token → Compose Unit
  | .versionDirective major minor :: rest => do
    if versioned ∨ major ≠ 1 ∨ (minor ≠ 1 ∧ minor ≠ 2) then failure
    advance
    directives true rest
  | .tagDirective handle expansion :: rest => do
    if ((← get).handles.lookup handle).isSome then failure
    modify fun c => { c with handles := c.handles ++ [(handle, expansion)] }
    advance
    directives versioned rest
  | _ => return

def standardHandles : List (Text × Text) := [("!", "!"), ("!!", "tag:yaml.org,2002:")]

/-- The root of the only document, if there is one; nothing may follow it. -/
def root : Compose (Option Node) := do
  let tokens := (← get).tokens
  if tokens.isEmpty then return none
  directives false tokens
  modify fun c => { c with handles := c.handles ++ standardHandles }
  let isDirective : Token → Bool
    | .versionDirective .. => true
    | .tagDirective .. => true
    | _ => false
  let fuel := 3 * tokens.length + 8
  let marked ← take .documentStart
  if !marked && tokens.head?.any isDirective then failure
  let again := (← peek).any isDirective
  let n ← if marked && (again || (← nextInOrEnd [.documentStart, .documentEnd])) then emptyScalar
    else node true false fuel
  if (← get).tokens.all (· = .documentEnd) then return some n else failure

end Composer

/-- A document: its root, if it is not empty, and what its aliases stand for. -/
structure Document where
  root : Option Node
  anchored : List Anchored
  events : Nat
  deriving Repr

namespace Document

def ofTokens? (tokens : List Token) : Option Document :=
  (Composer.root.run { tokens }).map fun (root, c) => ⟨root, c.anchored, c.events⟩

/-- The node in a slot: of several, the one that begins last. -/
def slot? (d : Document) (slot : Nat) : Option Node :=
  ((d.anchored.filter (·.slot = slot)).foldl (fun best a =>
    match best with
    | none => some a
    | some b => if b.start < a.start then some a else some b) none).map Anchored.node

def read? (text : Text) : Option Document := (Token.ofText? text).bind ofTokens?

end Document
end NotebookPages.Yaml
