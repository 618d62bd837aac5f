import NotebookPages.Path.Basic

/-!
Patterns for paths. Within a name `?` stands for one character, `*` for any number of them and
brackets for one out of a class; two stars in place of a name stand for any number of directories.
-/

namespace NotebookPages.Path

inductive PatternProblem where
  | unclosedClass
  | manyStars
  | mixedStars
  deriving DecidableEq, Repr

/-- A text that is no pattern, and the character where that shows. -/
structure PatternError where
  position : Nat
  problem : PatternProblem
  deriving DecidableEq, Repr

def PatternProblem.message : PatternProblem → Text
  | unclosedClass => "invalid range pattern"
  | manyStars => "wildcards are either regular `*` or recursive `**`"
  | mixedStars => "recursive wildcards must form a single path component"

def PatternError.message (e : PatternError) : Text :=
  "Pattern syntax error near position " ++ Text.ofNat e.position ++ ": " ++ e.problem.message

inductive Wildcard where
  | char (c : Char)
  | anyChar
  | anySequence
  | oneOf (inside : Bool) (ranges : List (Char × Char))
  deriving DecidableEq, Repr

namespace Wildcard

def accepts (w : Wildcard) (c : Char) : Bool :=
  match w with
  | char d => c == d
  | anyChar => true
  | anySequence => false
  | oneOf inside ranges => ranges.any (fun (a, b) => a ≤ c && c ≤ b) == inside

def covers : List Wildcard → Text → Bool
  | [], name => name.isEmpty
  | anySequence :: rest, name => (Text.tails name).any (covers rest)
  | _ :: _, [] => false
  | w :: rest, c :: name => w.accepts c && covers rest name

def ranges : Text → List (Char × Char)
  | a :: '-' :: b :: rest => (a, b) :: ranges rest
  | a :: rest => (a, a) :: ranges rest
  | [] => []

/-- The class that follows an opening bracket and the characters it takes, the closing bracket
included. A closing bracket in first place belongs to the class. -/
def class? : Text → Option (Wildcard × Nat)
  | '!' :: a :: rest => (members? rest).map fun more => (oneOf false (ranges (a :: more)), more.length + 3)
  | ['!'] => none
  | a :: rest => (members? rest).map fun more => (oneOf true (ranges (a :: more)), more.length + 2)
  | [] => none
where
  members? (t : Text) : Option Text := (Text.cut "]" t).map Prod.fst

end Wildcard

inductive Segment where
  | literal (name : Text)
  | recursive
  | wild (wildcards : List Wildcard)
  deriving DecidableEq, Repr

namespace Segment

def literal? : List Wildcard → Option Text
  | [] => some []
  | .char c :: rest => (literal? rest).map (c :: ·)
  | _ :: _ => none

def matchesName (s : Segment) (name : Text) : Bool :=
  match s with
  | literal text => name == text
  | recursive => false
  | wild wildcards => Wildcard.covers wildcards name

end Segment

structure Pattern where
  absolute : Bool
  segments : List Segment
  directories : Bool
  deriving DecidableEq, Repr

namespace Pattern

/-- The wildcards of a text from a position on. `previous` is the character before it, and `skip`
characters belong to a wildcard already read. Two stars become no wildcard. -/
def wildcards (position skip : Nat) (previous : Option Char) :
    Text → Except PatternError (List Wildcard)
  | [] => .ok []
  | c :: rest =>
    match skip with
    | n + 1 => wildcards (position + 1) n (some c) rest
    | 0 =>
      match c with
      | '?' => (wildcards (position + 1) 0 (some c) rest).map (.anyChar :: ·)
      | '*' =>
        match rest.takeWhile (· == '*') with
        | [] => (wildcards (position + 1) 0 (some c) rest).map (.anySequence :: ·)
        | [_] =>
          if previous.any (· ≠ '/') then .error ⟨position - 1, .mixedStars⟩
          else match rest.drop 1 with
            | d :: _ =>
              if d = '/' then wildcards (position + 1) 2 (some c) rest
              else .error ⟨position + 2, .mixedStars⟩
            | [] => wildcards (position + 1) 1 (some c) rest
        | _ => .error ⟨position + 2, .manyStars⟩
      | '[' =>
        match Wildcard.class? rest with
        | some (w, length) => (wildcards (position + 1) length (some c) rest).map (w :: ·)
        | none => .error ⟨position, .unclosedClass⟩
      | c => (wildcards (position + 1) 0 (some c) rest).map (.char c :: ·)

def segment (text : Text) : Except PatternError Segment :=
  if text = "**" then .ok .recursive
  else (wildcards 0 0 none text).map fun ws =>
    match Segment.literal? ws with
    | some name => .literal name
    | none => .wild ws

/-- Read a pattern. The whole is checked first, then each segment. -/
def read (text : Text) : Except PatternError Pattern := do
  let _ ← wildcards 0 0 none text
  let absolute := Path.isAbsolute text
  let relative := if absolute then text.dropWhile (· == '/') else text
  let parts := Text.split (· == '/') relative
  let parts := if parts.getLast? = some [] then parts.dropLast else parts
  let segments ← parts.mapM segment
  return ⟨absolute, segments, text.getLast? = some '/'⟩

/-- The text has a character that only a pattern gives a meaning to. -/
def isPattern (text : Text) : Bool := text.any fun c => c == '*' || c == '?' || c == '['

end Pattern
end NotebookPages.Path
