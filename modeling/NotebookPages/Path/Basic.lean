import NotebookPages.Text.Basic

/-!
Paths as they are written. Two paths are the same when their components are: repeated slashes, a slash
at the end and inner single dots do not count, while a single dot at the start does.
-/

namespace NotebookPages

abbrev Path := Text

namespace Path

inductive Component where
  | root
  | here
  | up
  | name (n : Text)
  deriving DecidableEq, Repr

def Component.text : Component → Text
  | root => "/"
  | here => "."
  | up => ".."
  | name n => n

def isAbsolute (p : Path) : Bool := p.head? == some '/'

def isIdle (part : Text) : Bool := part.isEmpty || part == ['.']

def ofPart (part : Text) : Component := if part = ".." then .up else .name part

def components (p : Path) : List Component :=
  let parts := Text.split (· == '/') p
  let start : List Component :=
    if isAbsolute p then [.root] else if parts.head? == some ['.'] then [.here] else []
  start ++ (parts.filter (!isIdle ·)).map ofPart

def same (p q : Path) : Bool := components p == components q

def withoutLast (p : Path) : Path :=
  (Text.dropEndWhile (· == '/') p).reverse.dropWhile (· != '/') |>.reverse

/-- Drop slashes and idle parts at the end; the slash of a root stays. `fuel` bounds their number. -/
def trimIdle : Nat → Path → Path
  | 0, p => p
  | fuel + 1, p =>
    let bare := Text.dropEndWhile (· == '/') p
    if bare.isEmpty then p.take 1
    else match Text.before? "/." bare with
      | some front => trimIdle fuel (front ++ ['/'])
      | none => bare

def parent? (p : Path) : Option Path :=
  match (components p).getLast? with
  | none => none
  | some .root => none
  | some _ => some (trimIdle p.length (withoutLast (trimIdle p.length p)))

/-- The path and its parents up to the directory it begins in, the innermost first. `fuel` bounds
their number. -/
def ancestorsUpTo : Nat → Path → List Path
  | 0, _ => []
  | fuel + 1, p =>
    if p.isEmpty then []
    else p :: match parent? p with
      | some above => ancestorsUpTo fuel above
      | none => []

def ancestors (p : Path) : List Path := ancestorsUpTo (p.length + 1) p

def fileName? (p : Path) : Option Text :=
  match (components p).getLast? with
  | some (.name n) => some n
  | _ => none

/-- A file name as stem and extension, which begins after the last dot; a dot at the start of the
name begins none. -/
def splitName (name : Text) : Text × Option Text :=
  let last := (name.reverse.takeWhile (· != '.')).reverse
  let front := name.take (name.length - last.length - 1)
  if last.length = name.length ∨ front.isEmpty then (name, none) else (front, some last)

def stem? (p : Path) : Option Text := (fileName? p).map fun n => (splitName n).1
def extension? (p : Path) : Option Text := (fileName? p).bind fun n => (splitName n).2

/-- A path read from within another; an absolute one replaces it. -/
def join (base p : Path) : Path :=
  if isAbsolute p then p
  else if base.isEmpty || base.getLast? == some '/' then base ++ p
  else base ++ '/' :: p

/-- Replace the last component if it is a name, else append. -/
def withFileName (p : Path) (name : Text) : Path :=
  match fileName? p with
  | some _ => join ((parent? p).getD []) name
  | none => join p name

/-- The path with the extension of its name left out. Where the path ends with two dots and an extension,
both dots are left. -/
def withoutExtension (p : Path) : Path :=
  match fileName? p with
  | none => p
  | some name =>
    let whole := trimIdle p.length p
    let bare := whole.take (whole.length - name.length + (splitName name).1.length)
    if (splitName name).1 = ['.'] ∧ whole = p then bare ++ ['.'] else bare

/-- The name given to the copy of a file that is about to be overwritten. -/
def backup (p : Path) : Path := withFileName p ((fileName? p).getD [] ++ ".backup")

end Path
end NotebookPages
