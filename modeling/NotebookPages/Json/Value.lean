import NotebookPages.Decimal.Shortest
import NotebookPages.Text.Utf8

/-!
JSON values and their texts. The members of an object are listed in the order in which they are
written; an object that was read has its keys in ascending order, each once.
-/

namespace NotebookPages

inductive Json where
  | null
  | bool (b : Bool)
  | integer (n : Int)
  | float (x : Binary64)
  | string (s : Text)
  | array (items : List Json)
  | object (members : List (Text × Json))
  deriving Repr

namespace Json

mutual

/-- Whether two values are the same, part by part: equality is not derived for a type that is nested in lists. -/
def same : Json → Json → Bool
  | null, null => true
  | bool a, bool b => a == b
  | integer a, integer b => a == b
  | float a, float b => a == b
  | string a, string b => a == b
  | array items, array items' => sameItems items items'
  | object members, object members' => sameMembers members members'
  | _, _ => false

def sameItems : List Json → List Json → Bool
  | [], [] => true
  | item :: items, item' :: items' => same item item' && sameItems items items'
  | _, _ => false

def sameMembers : List (Text × Json) → List (Text × Json) → Bool
  | [], [] => true
  | (key, value) :: members, (key', value') :: members' => key == key' && same value value' && sameMembers members members'
  | _, _ => false

end

mutual

theorem same_iff : ∀ a b : Json, same a b = true ↔ a = b
  | null, b | bool _, b | integer _, b | float _, b | string _, b => by cases b <;> simp [same]
  | array items, b => by cases b <;> simp [same, sameItems_iff items]
  | object members, b => by cases b <;> simp [same, sameMembers_iff members]

theorem sameItems_iff : ∀ items items' : List Json, sameItems items items' = true ↔ items = items'
  | [], items' => by cases items' <;> simp [sameItems]
  | item :: items, items' => by cases items' <;> simp [sameItems, same_iff item, sameItems_iff items]

theorem sameMembers_iff : ∀ members members' : List (Text × Json), sameMembers members members' = true ↔ members = members'
  | [], members' => by cases members' <;> simp [sameMembers]
  | (key, value) :: members, members' => by
    cases members' <;> simp [sameMembers, same_iff value, sameMembers_iff members, Prod.ext_iff]

end

instance : DecidableEq Json := fun a b => decidable_of_iff _ (same_iff a b)

/-- Put a member in its place, over one with the same key. -/
def insert (key : Text) (value : Json) : List (Text × Json) → List (Text × Json)
  | [] => [(key, value)]
  | (k, v) :: rest =>
    if k = key then (key, value) :: rest
    else if Text.le key k then (key, value) :: (k, v) :: rest
    else (k, v) :: insert key value rest

/-- The members of an object written in the given order: ascending keys, of equal ones the last. -/
def sorted (members : List (Text × Json)) : List (Text × Json) :=
  members.foldl (fun ms (k, v) => insert k v ms) []

def get? (key : Text) : Json → Option Json
  | object members => members.lookup key
  | _ => none

def string? : Json → Option Text
  | string s => some s
  | _ => none

def strings? (items : List Json) : Option (List Text) := items.mapM string?

def isObject : Json → Bool
  | object _ => true
  | _ => false

def exponents : Binary64.Exponents := ⟨"+"⟩

private def escapedChar (c : Char) : Text :=
  match c with
  | '"' => "\\\""
  | '\\' => "\\\\"
  | '\x08' => "\\b"
  | '\x0c' => "\\f"
  | '\n' => "\\n"
  | '\r' => "\\r"
  | '\t' => "\\t"
  | c =>
    if c.toNat < 32 then "\\u00" ++ (if c.toNat < 16 then ['0'] else []) ++ Nat.toDigits 16 c.toNat
    else [c]

def quote (s : Text) : Text := "\"" ++ s.flatMap escapedChar ++ "\""

def scalarText : Json → Text
  | bool true => "true"
  | bool false => "false"
  | integer n => Text.ofInt n
  | float (.finite negative m e) => Binary64.finiteText exponents negative m e
  | string s => quote s
  | _ => "null"

mutual

def compact : Json → Text
  | array items => "[" ++ compactItems items ++ "]"
  | object members => "\x7b" ++ compactMembers members ++ "\x7d"
  | scalar => scalar.scalarText

def compactItems : List Json → Text
  | [] => []
  | [item] => compact item
  | item :: rest => compact item ++ "," ++ compactItems rest

def compactMembers : List (Text × Json) → Text
  | [] => []
  | [(k, v)] => quote k ++ ":" ++ compact v
  | (k, v) :: rest => quote k ++ ":" ++ compact v ++ "," ++ compactMembers rest

end

private def indent (depth : Nat) : Text := '\n' :: List.replicate (2 * depth) ' '

mutual

/-- The text with one item a line and two spaces for each level, the value being on level `depth`. -/
def prettyAt (depth : Nat) : Json → Text
  | array [] => "[]"
  | object [] => "\x7b\x7d"
  | array items => "[" ++ prettyItems (depth + 1) items ++ indent depth ++ "]"
  | object members => "\x7b" ++ prettyMembers (depth + 1) members ++ indent depth ++ "\x7d"
  | scalar => scalar.scalarText

def prettyItems (depth : Nat) : List Json → Text
  | [] => []
  | [item] => indent depth ++ prettyAt depth item
  | item :: rest => indent depth ++ prettyAt depth item ++ "," ++ prettyItems depth rest

def prettyMembers (depth : Nat) : List (Text × Json) → Text
  | [] => []
  | [(k, v)] => indent depth ++ quote k ++ ": " ++ prettyAt depth v
  | (k, v) :: rest =>
    indent depth ++ quote k ++ ": " ++ prettyAt depth v ++ "," ++ prettyMembers depth rest

end

def pretty (j : Json) : Text := prettyAt 0 j

end Json
end NotebookPages
