import NotebookPages.Path.Basic
import NotebookPages.Text.Utf8

/-!
Files and directories by location. A location is the names on the way down from the root, so two paths
lead to the same file exactly when they lead to the same location. There are no links.
-/

namespace NotebookPages

abbrev Location := List Text

inductive Entry where
  | directory
  | file (content : Bytes)
  deriving DecidableEq, Repr

inductive StorageError where
  | notFound
  | notDirectory
  | isDirectory
  | alreadyThere
  | nameTooLong
  | unusableName
  | notRegular
  | notText
  deriving DecidableEq, Repr

def StorageError.message : StorageError → Text
  | notFound => "No such file or directory (os error 2)"
  | notDirectory => "Not a directory (os error 20)"
  | isDirectory => "Is a directory (os error 21)"
  | alreadyThere => "File exists (os error 17)"
  | nameTooLong => "File name too long (os error 36)"
  | unusableName => "file name contained an unexpected NUL byte"
  | notRegular => "the source path is neither a regular file nor a symlink to a regular file"
  | notText => "stream did not contain valid UTF-8"

/-- The entries below the root, and the directory in which relative paths begin. -/
structure FileTree where
  entries : List (Location × Entry) := []
  current : Location := []
  deriving Repr

namespace FileTree

/-- The entry at a location; the root is always a directory. -/
def get? (t : FileTree) (l : Location) : Option Entry :=
  if l = [] then some .directory else t.entries.lookup l

def put (t : FileTree) (l : Location) (e : Entry) : FileTree :=
  { t with entries := (l, e) :: t.entries.filter (·.1 ≠ l) }

private theorem lookup_filter_ne (entries : List (Location × Entry)) {l m : Location} (other : m ≠ l) :
    (entries.filter (·.1 ≠ l)).lookup m = entries.lookup m := by
  induction entries with
  | nil => rfl
  | cons entry rest ih =>
    obtain ⟨k, e⟩ := entry
    by_cases same : k = l
    · subst same
      simpa [List.lookup_cons, beq_false_of_ne other] using ih
    · simp only [ne_eq, same, not_false_eq_true, decide_true, List.filter_cons_of_pos, List.lookup_cons]
      split <;> simp_all

theorem get?_put (t : FileTree) (l m : Location) (e : Entry) (below : l ≠ []) :
    (t.put l e).get? m = if m = l then some e else t.get? m := by
  unfold get? put
  by_cases root : m = []
  · simp [root, Ne.symm below]
  · by_cases same : m = l
    · simp [same, below]
    · rw [if_neg root, if_neg root, if_neg same, List.lookup_cons, beq_false_of_ne same]
      exact lookup_filter_ne t.entries same

def nameLimit : Nat := 255

def pathLimit : Nat := 4095

def walk (t : FileTree) (l : Location) : List Text → Except StorageError Location
  | [] => .ok l
  | part :: rest =>
    if t.get? l ≠ some .directory then .error .notDirectory
    else if Path.isIdle part then walk t l rest
    else if part = ".." then walk t l.dropLast rest
    else if Text.utf8Length part > nameLimit then .error .nameTooLong
    else if (t.get? (l ++ [part])).isNone then .error .notFound
    else walk t (l ++ [part]) rest

def start (t : FileTree) (p : Path) : Location := if Path.isAbsolute p then [] else t.current

def textError? (p : Path) : Option StorageError :=
  if p.contains '\x00' then some .unusableName
  else if p.isEmpty then some .notFound
  else if Text.utf8Length p > pathLimit then some .nameTooLong
  else none

/-- The location of something that exists. -/
def locate (t : FileTree) (p : Path) : Except StorageError Location :=
  match textError? p with
  | some e => .error e
  | none => t.walk (t.start p) (Text.split (· == '/') p)

def entry? (t : FileTree) (p : Path) : Option Entry :=
  match t.locate p with
  | .ok l => t.get? l
  | .error _ => none

def contains (t : FileTree) (p : Path) : Bool := (t.entry? p).isSome
def isDirectory (t : FileTree) (p : Path) : Bool := t.entry? p == some .directory

def isFile (t : FileTree) (p : Path) : Bool :=
  match t.entry? p with
  | some (.file _) => true
  | _ => false

/-- Both paths exist and lead to one location, or they are the same in writing. -/
def sameFile (t : FileTree) (p q : Path) : Bool :=
  match t.locate p, t.locate q with
  | .ok l, .ok m => l = m
  | _, _ => Path.same p q

def readBytes (t : FileTree) (p : Path) : Except StorageError Bytes := do
  match t.get? (← t.locate p) with
  | some (.file content) => .ok content
  | some .directory => .error .isDirectory
  | none => .error .notFound

def readText (t : FileTree) (p : Path) : Except StorageError Text := do
  match Text.decode? (← t.readBytes p) with
  | some text => .ok text
  | none => .error .notText

inductive Target where
  /-- A name within a directory; `slash` tells whether slashes follow it. -/
  | child (directory : Location) (name : Text) (slash : Bool)
  /-- The root, or a directory named by dots. -/
  | existing

def target (t : FileTree) (p : Path) : Except StorageError Target :=
  match textError? p with
  | some e => .error e
  | none =>
    let parts := Text.split (· == '/') p
    let bare := (parts.reverse.dropWhile List.isEmpty).reverse
    match bare.getLast? with
    | none => .ok .existing
    | some last => do
      let directory ← t.walk (t.start p) bare.dropLast
      if t.get? directory ≠ some .directory then .error .notDirectory
      else if last = "." ∨ last = ".." then .ok .existing
      else if Text.utf8Length last > nameLimit then .error .nameTooLong
      else .ok (.child directory last (bare.length < parts.length))

def write (t : FileTree) (p : Path) (content : Bytes) : Except StorageError FileTree := do
  match ← t.target p with
  | .existing => .error .isDirectory
  | .child directory name slash =>
    let l := directory ++ [name]
    if slash ∨ t.get? l = some .directory then .error .isDirectory
    else .ok (t.put l (.file content))

def copy (t : FileTree) (source destination : Path) : Except StorageError FileTree := do
  match t.get? (← t.locate source) with
  | some (.file content) => t.write destination content
  | _ => .error .notRegular

def makeDirectory (t : FileTree) (p : Path) : Except StorageError FileTree := do
  match ← t.target p with
  | .existing => .error .alreadyThere
  | .child directory name _ =>
    let l := directory ++ [name]
    if (t.get? l).isSome then .error .alreadyThere else .ok (t.put l .directory)

/-- Create the first of some directories, of which each lies in the next, and what it needs of the
others. What was created stays when a later one fails. -/
def makeChain (t : FileTree) : List Path → FileTree × Option StorageError
  | [] => (t, none)
  | p :: above =>
    match t.makeDirectory p with
    | .ok t => (t, none)
    | .error .notFound =>
      match makeChain t above with
      | (t, some e) => (t, some e)
      | (t, none) =>
        match t.makeDirectory p with
        | .ok t => (t, none)
        | .error e => (t, if t.isDirectory p then none else some e)
    | .error e => (t, if t.isDirectory p then none else some e)

def makeDirectories (t : FileTree) (p : Path) : FileTree × Option StorageError :=
  t.makeChain (Path.ancestors p)

/-- The entries below a location, those of a directory after it and by ascending name, with the names
on the way to them. -/
def below (t : FileTree) (l : Location) : List (List Text × Entry) :=
  let inside := t.entries.filterMap fun (k, e) =>
    (l.isPrefixOf? k).bind fun way => if way.isEmpty then none else some (way, e)
  inside.mergeSort fun a b => leLocation a.1 b.1
where
  leLocation : List Text → List Text → Bool
    | [], _ => true
    | _ :: _, [] => false
    | a :: s, b :: t => if a = b then leLocation s t else Text.le a b

end FileTree
end NotebookPages
