import NotebookPages.Markup.Dialect

/-!
HTML tags that begin and end on one line: how they are read and how they are written. Reading gives
the tag and the rest of the line.
-/

namespace NotebookPages

structure Attribute where
  name : Text
  value : Option (Char × Text)
  deriving DecidableEq, Repr

namespace Attribute

def isNameChar (c : Char) : Bool :=
  Text.isAlphanumeric c || c == '-' || c == '_' || c == ':' || c == '.' || c == '@'

def isBareChar (c : Char) : Bool := !Text.isMarkupBlank c && c != '>'

/-- Characters that a value without quotes may not hold. -/
def isQuoteworthy (c : Char) : Bool :=
  c == '"' || c == '\'' || c == '<' || c == '=' || c == '`'

/-- The value after the equals sign; one without quotes is given double quotes. -/
def readValue? (s : Text) : Option ((Char × Text) × Text) :=
  match s.dropWhile Text.isMarkupBlank with
  | [] => none
  | c :: rest =>
    if c == '"' || c == '\'' then
      match rest.dropWhile (· != c) with
      | [] => none
      | _ :: after => some ((c, rest.takeWhile (· != c)), after)
    else
      let value := (c :: rest).takeWhile isBareChar
      if value.isEmpty || value.any isQuoteworthy then none
      else some (('"', value), (c :: rest).dropWhile isBareChar)

def read? (s : Text) : Option (Attribute × Text) :=
  let name := s.takeWhile isNameChar
  let rest := s.dropWhile isNameChar
  if name.isEmpty then none
  else match rest.dropWhile Text.isMarkupBlank with
    | '=' :: after => (readValue? after).map fun (value, rest) => (⟨name, some value⟩, rest)
    | _ => some (⟨name, none⟩, rest)

def render (a : Attribute) : Text :=
  ' ' :: a.name ++ match a.value with
    | none => []
    | some (quote, value) => '=' :: quote :: value ++ [quote]

end Attribute

inductive TagKind where
  | opening
  | closing
  | selfClosing
  deriving DecidableEq, Repr

structure Tag where
  name : Text
  kind : TagKind
  attributes : List Attribute
  slash : Bool
  deriving DecidableEq, Repr

def isDataUrl (url : Text) : Bool := Text.sameLetters (url.take 5) "data:"

namespace Tag

def voidElements : List Text :=
  ["area", "base", "br", "col", "embed", "hr", "img", "input", "link", "meta", "param", "source",
    "track", "wbr"]

def isVoid (name : Text) : Bool := voidElements.any (Text.sameLetters name)

def isNameChar (c : Char) : Bool :=
  Text.isAlphanumeric c || c == '-' || c == '_' || c == ':' || c == '.'

/-- Attributes and end of a tag: the attributes, whether a slash precedes the end, and the rest of
the line. Each attribute needs a blank before it, and a closing tag has none. `fuel` bounds the
number of attributes. -/
def readTail? (closing : Bool) : Nat → Text → Option (List Attribute × Bool × Text)
  | 0, _ => none
  | fuel + 1, s =>
    match s.dropWhile Text.isMarkupBlank with
    | [] => none
    | '>' :: rest => some ([], false, rest)
    | '/' :: '>' :: rest => if closing then none else some ([], true, rest)
    | body =>
      if closing || !s.head?.any Text.isMarkupBlank then none
      else match Attribute.read? body with
        | none => none
        | some (a, rest) =>
          (readTail? closing fuel rest).map fun (as, slash, rest) => (a :: as, slash, rest)

def kindOf (closing slash : Bool) (name : Text) : TagKind :=
  if closing then .closing else if slash || isVoid name then .selfClosing else .opening

def readNamed? (closing : Bool) (s : Text) : Option (Tag × Text) :=
  if s.head?.any Text.isLetter then
    let name := s.takeWhile isNameChar
    (readTail? closing (s.length + 1) (s.dropWhile isNameChar)).map fun (attributes, slash, rest) =>
      (⟨name, kindOf closing slash name, attributes, slash⟩, rest)
  else none

def read? : Text → Option (Tag × Text)
  | '<' :: '/' :: s => readNamed? true s
  | '<' :: s => readNamed? false s
  | _ => none

/-- The attribute is written in the dialect; MDX takes no style text. -/
def keeps (d : Dialect) (a : Attribute) : Bool :=
  !(d == .mdx && Text.sameLetters a.name "style")

def render (d : Dialect) (t : Tag) : Text :=
  match t.kind with
  | .closing => "</" ++ t.name ++ ">"
  | kind =>
    '<' :: t.name ++ (t.attributes.filter (keeps d)).flatMap Attribute.render ++
      if kind = .selfClosing ∧ (d = .mdx ∨ t.slash) then " />" else ">"

def isDataImage (t : Tag) : Bool :=
  t.kind != .closing && Text.sameLetters t.name "img" &&
    t.attributes.any fun a =>
      Text.sameLetters a.name "src" && a.value.any fun (_, v) => isDataUrl (Text.trimStart v)

end Tag
end NotebookPages
