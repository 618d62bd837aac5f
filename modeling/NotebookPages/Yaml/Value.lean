import NotebookPages.Decimal.Shortest
import NotebookPages.Yaml.Node

/-!
The values of a YAML document. A plain scalar is read as null, a boolean, an integer of 64 bits, a
float, or else as text; quotes make any scalar a text. A mapping has no two equal keys.
-/

namespace NotebookPages.Yaml

inductive Value where
  | null
  | bool (b : Bool)
  | integer (n : Int)
  | float (x : Binary64)
  | string (s : Text)
  | sequence (items : List Value)
  | mapping (pairs : List (Value × Value))
  | tagged (tag : Text) (value : Value)
  deriving Repr

namespace Value

mutual

/-- Equality of values. The order of the pairs of a mapping does not matter. -/
def same : Value → Value → Bool
  | null, null => true
  | bool a, bool b => a == b
  | integer a, integer b => a == b
  | float a, float b => a.same b
  | string a, string b => a == b
  | sequence as, sequence bs => sameItems as bs
  | mapping as, mapping bs => as.length == bs.length && samePairs as bs
  | tagged s a, tagged t b => s == t && same a b
  | _, _ => false

def sameItems : List Value → List Value → Bool
  | [], [] => true
  | a :: as, b :: bs => same a b && sameItems as bs
  | _, _ => false

def samePairs : List (Value × Value) → List (Value × Value) → Bool
  | [], _ => true
  | (k, v) :: rest, bs => bs.any (fun b => same k b.1 && same v b.2) && samePairs rest bs

end

def isNull (s : Text) : Bool :=
  s.isEmpty || [("null" : Text), "Null", "NULL", "~"].contains s

def bool? (s : Text) : Option Bool :=
  if [("true" : Text), "True", "TRUE"].contains s then some true
  else if [("false" : Text), "False", "FALSE"].contains s then some false
  else none

def digit? (base : Nat) (c : Char) : Option Nat :=
  let n := c.toNat
  let d? := if Text.isDigit c then some (n - 48)
    else if 'a' ≤ c && c ≤ 'z' then some (n - 87)
    else if 'A' ≤ c && c ≤ 'Z' then some (n - 55)
    else none
  d?.filter (· < base)

def digits? (base : Nat) (s : Text) : Option Nat :=
  if s.isEmpty then none
  else s.foldl (fun value c => do return (← value) * base + (← digit? base c)) (some 0)

/-- Digits with a zero in front are a text. -/
def isPadded (s : Text) : Bool :=
  let digits := match s with
    | '-' :: rest => rest
    | '+' :: rest => rest
    | s => s
  1 < digits.length && digits.head? == some '0' && digits.all Text.isDigit

def magnitude? (s : Text) : Option Nat :=
  let marked? := match s with
    | '0' :: 'x' :: rest => digits? 16 rest
    | '0' :: 'o' :: rest => digits? 8 rest
    | '0' :: 'b' :: rest => digits? 2 rest
    | _ => none
  marked?.or (if isPadded s then none else digits? 10 s)

/-- The integer that a text spells, however large. -/
def integer? (s : Text) : Option Int :=
  match s with
  | '-' :: rest => (magnitude? rest).map fun n => -(n : Int)
  | '+' :: rest => (magnitude? rest).map fun n => (n : Int)
  | _ => (magnitude? s).map fun n => (n : Int)

/-- A decimal number: digits with a point among them or not, and an exponent or not. -/
def decimal? (negative : Bool) (s : Text) : Option Binary64 :=
  let whole := s.takeWhile Text.isDigit
  let rest := s.dropWhile Text.isDigit
  let (fraction, rest) := match rest with
    | '.' :: rest => (rest.takeWhile Text.isDigit, rest.dropWhile Text.isDigit)
    | rest => ([], rest)
  let digits := whole ++ fraction
  let exponent? : Option Int := match rest with
    | [] => some 0
    | e :: rest =>
      if e == 'e' || e == 'E' then
        match rest with
        | '-' :: digits => (digits? 10 digits).map fun n => -(n : Int)
        | '+' :: digits => (digits? 10 digits).map fun n => (n : Int)
        | digits => (digits? 10 digits).map fun n => (n : Int)
      else none
  match digits? 10 digits, exponent? with
  | some n, some e => some (Binary64.ofDecimal negative n (e - fraction.length))
  | _, _ => none

/-- The float that a text spells. A decimal number too large for a double is a text. -/
def float? (s : Text) : Option Binary64 :=
  let unsigned? := match s with
    | '+' :: rest => if rest.head?.any (fun c => c == '+' || c == '-') then none else some rest
    | s => some s
  let finite? (s : Text) : Option Binary64 :=
    (match s with
      | '-' :: rest => decimal? true rest
      | s => decimal? false s).filter Binary64.isFinite
  match unsigned? with
  | none => none
  | some unsigned =>
    if [(".inf" : Text), ".Inf", ".INF"].contains unsigned then some (.infinite false)
    else if [("-.inf" : Text), "-.Inf", "-.INF"].contains s then some (.infinite true)
    else if [(".nan" : Text), ".NaN", ".NAN"].contains s then some .nan
    else finite? unsigned

def fitsInteger (n : Int) : Bool := -(Nat.pow 2 63 : Int) ≤ n && n < Nat.pow 2 64

def fitsWide (n : Int) : Bool := -(Nat.pow 2 127 : Int) ≤ n && n < Nat.pow 2 128

/-- The value of a plain scalar. Integers that take more than 64 but no more than 128 bits have no
value; beyond that, decimal ones are floats. -/
def ofPlain? (s : Text) : Option Value :=
  if isNull s then some null
  else match bool? s with
    | some b => some (bool b)
    | none =>
      match (integer? s).filter fitsWide with
      | some n => if fitsInteger n then some (integer n) else none
      | none =>
        if isPadded s then some (string s)
        else match float? s with
          | some x => some (float x)
          | none => some (string s)

/-- The tag of an application, without its exclamation mark unless that is all. -/
def ownTag? : Option Text → Option Text
  | some ['!'] => some ['!']
  | some ('!' :: rest) => some rest
  | _ => none

/-- The value of a scalar. Standard tags ask for a kind of value. -/
def ofScalar? (tag : Option Text) (plain : Bool) (s : Text) : Option Value :=
  let standard (name : Text) : Bool := tag == some ("tag:yaml.org,2002:" ++ name)
  if standard "bool" then (bool? s).map bool
  else if standard "int" then ((integer? s).filter fitsInteger).map integer
  else if standard "float" then (float? s).map float
  else if standard "null" then
    if [("null" : Text), "Null", "NULL", "~"].contains s then some null else none
  else if tag.isNone && plain then ofPlain? s
  else some (string s)

/-- The value of a scalar whose own tag is already taken care of. -/
def ofTaggedScalar? (plain : Bool) (s : Text) : Option Value :=
  if plain then ofPlain? s else some (string s)

def depthLimit : Nat := 128

/-- Read the items of a sequence one after another; the number is what is left of the jumps. -/
def readItems (read : Nat → Node → Option (Value × Nat)) (jumps : Nat) :
    List Node → Option (List Value × Nat)
  | [] => some ([], jumps)
  | n :: rest =>
    match read jumps n with
    | none => none
    | some (v, jumps) => (readItems read jumps rest).map fun (vs, j) => (v :: vs, j)

/-- Read the pairs of a mapping after those in `done`. A key that is there already is refused. -/
def readPairs (read : Nat → Node → Option (Value × Nat)) (jumps : Nat)
    (done : List (Value × Value)) : List (Node × Node) → Option (List (Value × Value) × Nat)
  | [] => some (done, jumps)
  | (key, value) :: rest =>
    match read jumps key with
    | none => none
    | some (k, jumps) =>
      if done.any fun (other, _) => same k other then none
      else match read jumps value with
        | none => none
        | some (v, jumps) => readPairs read jumps (done ++ [(k, v)]) rest

/-- The value of a node. `depth` collections may be nested, and `jumps` aliases followed; what is left
of these is given back. `settled` says that the node's tag is taken care of. `fuel` bounds the
steps from a node to one within it or behind it. -/
def ofNode? (d : Document) : Nat → Nat → Bool → Nat → Node → Option (Value × Nat)
  | 0, _, _, _, _ => none
  | fuel + 1, depth, _, jumps, .alias slot =>
    match jumps, d.slot? slot with
    | jumps + 1, some target => ofNode? d fuel depth false jumps target
    | _, _ => none
  | _ + 1, _, true, jumps, .scalar _ plain s => (ofTaggedScalar? plain s).map (·, jumps)
  | _ + 1, _, false, jumps, .scalar tag plain s =>
    match ownTag? tag with
    | some name => (ofTaggedScalar? plain s).map fun v => (tagged name v, jumps)
    | none => (ofScalar? tag plain s).map (·, jumps)
  | fuel + 1, depth, settled, jumps, .sequence tag items =>
    match if settled then none else ownTag? tag with
    | some name =>
      (ofNode? d fuel depth true jumps (.sequence tag items)).map fun (v, j) => (tagged name v, j)
    | none =>
      if depth = 0 then none
      else (readItems (ofNode? d fuel (depth - 1) false) jumps items).map fun (vs, j) =>
        (sequence vs, j)
  | fuel + 1, depth, settled, jumps, .mapping tag pairs =>
    match if settled then none else ownTag? tag with
    | some name =>
      (ofNode? d fuel depth true jumps (.mapping tag pairs)).map fun (v, j) => (tagged name v, j)
    | none =>
      if depth = 0 then none
      else (readPairs (ofNode? d fuel (depth - 1) false) jumps [] pairs).map fun (ps, j) =>
        (mapping ps, j)

/-- How often an alias may be followed for each event of the document. -/
def jumpsPerEvent : Nat := 100

def ofDocument? (d : Document) : Option Value :=
  match d.root with
  | none => some null
  | some n =>
    (ofNode? d (4 * depthLimit + 8) depthLimit false (jumpsPerEvent * d.events) n).map Prod.fst

def read? (text : Text) : Option Value := (Document.read? text).bind ofDocument?

def exponents : Binary64.Exponents := ⟨[]⟩

def floatText : Binary64 → Text
  | .finite negative m e => Binary64.finiteText exponents negative m e
  | .infinite false => ".inf"
  | .infinite true => "-.inf"
  | .nan => ".nan"

end Value
end NotebookPages.Yaml
