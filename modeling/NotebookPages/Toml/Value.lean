import NotebookPages.Decimal.Binary64
import NotebookPages.Text.Basic

/-!
TOML values, and a document while its tables are put together. A table remembers how it came to be,
because that decides who may still add to it.
-/

namespace NotebookPages.Toml

inductive Value where
  | string (s : Text)
  | integer (n : Int)
  | float (x : Binary64)
  | boolean (b : Bool)
  | datetime
  | array (items : List Value)
  | table (entries : List (Text × Value))
  deriving Repr

namespace Value

/-- The values of named fields. A table has them by name, an array in order, and a date has none. -/
def fields? (names : List Text) : Value → Option (Text → Option Value)
  | table entries => some fun name => entries.lookup name
  | array items => some fun name => (names.zip items).lookup name
  | datetime => some fun _ => none
  | _ => none

def string? : Value → Option Text
  | string s => some s
  | _ => none

def integer? : Value → Option Int
  | integer n => some n
  | _ => none

def natural? : Value → Option Nat
  | integer (.ofNat n) => some n
  | _ => none

def boolean? : Value → Option Bool
  | boolean b => some b
  | _ => none

def list? (read? : Value → Option α) : Value → Option (List α)
  | array items => items.mapM read?
  | _ => none

def required? (read? : Value → Option α) (field : Option Value) : Option α := field.bind read?

def optional? (read? : Value → Option α) : Option Value → Option (Option α)
  | none => some none
  | some v => (read? v).map some

def defaulted? (read? : Value → Option α) (standard : α) : Option Value → Option α
  | none => some standard
  | some v => read? v

end Value

inductive Origin where
  | header
  | implied
  | dotted
  deriving DecidableEq, Repr

inductive Item where
  | value (v : Value)
  | table (origin : Origin) (entries : List (Text × Item))
  /-- Tables under one header, the last one first. -/
  | tables (list : List (List (Text × Item)))

abbrev Entries := List (Text × Item)

namespace Item

mutual

def toValue : Item → Value
  | value v => v
  | table _ entries => .table (toValues entries)
  | tables list => .array (toTables [] list)

def toValues : List (Text × Item) → List (Text × Value)
  | [] => []
  | (key, item) :: rest => (key, toValue item) :: toValues rest

def toTables (done : List Value) : List (List (Text × Item)) → List Value
  | [] => done
  | entries :: rest => toTables (.table (toValues entries) :: done) rest

end

end Item

namespace Entries

def set (key : Text) (item : Item) (es : Entries) : Entries :=
  es.map fun (k, old) => if k = key then (k, item) else (k, old)

/-- Change the table that a path of keys leads to, given how it came to be. Missing tables are made on
the way as `made`; a table with a header of its own may not be entered by dotted keys. -/
def update (made : Origin) (change : Origin → Entries → Option Entries) :
    Origin → List Text → Entries → Option Entries
  | origin, [], es => change origin es
  | _, key :: path, es =>
    match es.lookup key with
    | none => (update made change made path []).map fun sub => es ++ [(key, .table made sub)]
    | some (.value _) => none
    | some (.tables []) => none
    | some (.tables (last :: before)) =>
      (update made change .header path last).map fun sub => set key (.tables (sub :: before)) es
    | some (.table origin sub) =>
      if made = .dotted ∧ origin = .header then none
      else (update made change origin path sub).map fun sub => set key (.table origin sub) es

/-- Add a value under a path of keys. Only tables made by dotted keys take values by them. -/
def add? (path : List Text) (key : Text) (v : Value) (es : Entries) : Option Entries :=
  update .dotted (fun origin es =>
    if decide (origin = .dotted) == path.isEmpty || (es.lookup key).isSome then none
    else some (es ++ [(key, .value v)])) .header path es

end Entries
end NotebookPages.Toml
