import NotebookPages.Toml.Value

/-!
Scalars of TOML: strings in their four forms, numbers, dates and times. Reading gives what was read
and what follows it.
-/

namespace NotebookPages.Toml

def isSpace (c : Char) : Bool := c == ' ' || c == '\t'

/-- Characters that strings and comments may hold: no control characters but the tab. -/
def isPlain (c : Char) : Bool := c == '\t' || (' ' ≤ c && c != '\x7f')

def afterNewline? : Text → Option Text
  | '\n' :: rest => some rest
  | '\r' :: '\n' :: rest => some rest
  | _ => none

def hexDigit? (c : Char) : Option Nat :=
  if '0' ≤ c && c ≤ '9' then some (c.toNat - 48)
  else if 'a' ≤ c && c ≤ 'f' then some (c.toNat - 87)
  else if 'A' ≤ c && c ≤ 'F' then some (c.toNat - 55)
  else none

def digitsValue? (base : Nat) (s : Text) : Option Nat :=
  s.foldl (fun value c => do return (← value) * base + (← (hexDigit? c).filter (· < base))) (some 0)

def codeChar? (count : Nat) (s : Text) : Option Char := do
  let digits := s.take count
  let n ← digitsValue? 16 digits
  if digits.length = count ∧ n.isValidChar then some (Char.ofNat n) else none

def escape? : Text → Option (Char × Nat)
  | [] => none
  | c :: rest =>
    match c with
    | 'b' => some ('\x08', 1)
    | 'f' => some ('\x0c', 1)
    | 'n' => some ('\n', 1)
    | 'r' => some ('\r', 1)
    | 't' => some ('\t', 1)
    | '\\' => some ('\\', 1)
    | '"' => some ('"', 1)
    | 'u' => (codeChar? 4 rest).map (·, 5)
    | 'U' => (codeChar? 8 rest).map (·, 9)
    | _ => none

def basicString? (skip : Nat) (done : Text) : Text → Option (Text × Text)
  | [] => none
  | c :: rest =>
    match skip with
    | n + 1 => basicString? n done rest
    | 0 =>
      if c == '"' then some (done.reverse, rest)
      else if c == '\\' then
        match escape? rest with
        | some (shown, length) => basicString? length (shown :: done) rest
        | none => none
      else if isPlain c then basicString? 0 (c :: done) rest
      else none

def literalString? (s : Text) : Option (Text × Text) :=
  match s.dropWhile fun c => isPlain c && c != '\'' with
  | '\'' :: rest => some (s.takeWhile fun c => isPlain c && c != '\'', rest)
  | _ => none

def skipNewlines : Text → Text
  | '\r' :: '\n' :: rest => skipNewlines rest
  | c :: rest => if isSpace c || c == '\n' then skipNewlines rest else c :: rest
  | [] => []

/-- What follows a backslash that ends its line, and the blanks after it. -/
def afterLineEnd? (s : Text) : Option Text :=
  (afterNewline? (s.dropWhile isSpace)).map skipNewlines

/-- A string over several lines, after its opening quotes. Up to two quotes may precede those that
close it. -/
def multilineString? (quote : Char) (skip : Nat) (done : Text) : Text → Option (Text × Text)
  | [] => none
  | c :: rest =>
    match skip with
    | n + 1 => multilineString? quote n done rest
    | 0 =>
      if c == quote then
        let run := (rest.takeWhile (· == quote)).length + 1
        if run < 3 then
          multilineString? quote (run - 1) (List.replicate run quote ++ done) rest
        else
          let inner := min (run - 3) 2
          some ((List.replicate inner quote ++ done).reverse, rest.drop (inner + 2))
      else if quote == '"' && c == '\\' then
        match afterLineEnd? rest with
        | some after => multilineString? quote (rest.length - after.length) done rest
        | none =>
          match escape? rest with
          | some (shown, length) => multilineString? quote length (shown :: done) rest
          | none => none
      else if c == '\n' then multilineString? quote 0 ('\n' :: done) rest
      else if c == '\r' then
        if rest.head? == some '\n' then multilineString? quote 0 done rest else none
      else if isPlain c then multilineString? quote 0 (c :: done) rest
      else none

/-- A string in any form. The first newline after three quotes does not count. -/
def string? (s : Text) : Option (Text × Text) :=
  let body (rest : Text) : Text := (afterNewline? rest).getD rest
  match s with
  | '"' :: '"' :: '"' :: rest => multilineString? '"' 0 [] (body rest)
  | '"' :: rest => basicString? 0 [] rest
  | '\'' :: '\'' :: '\'' :: rest => multilineString? '\'' 0 [] (body rest)
  | '\'' :: rest => literalString? rest
  | _ => none

def fixedDigits? (count : Nat) (s : Text) : Option (Nat × Text) := do
  let digits := s.take count
  if digits.length = count ∧ digits.all Text.isDigit then
    return (← digitsValue? 10 digits, s.drop count)
  else none

def twoDigits? (least greatest : Nat) (s : Text) : Option (Nat × Text) :=
  (fixedDigits? 2 s).filter fun (n, _) => least ≤ n && n ≤ greatest

def after? (c : Char) (s : Text) : Option Text := if s.head? = some c then some s.tail else none

def isLeapYear (year : Nat) : Bool := year % 4 == 0 && (year % 100 != 0 || year % 400 == 0)

def daysOf (year month : Nat) : Nat :=
  if month = 2 then (if isLeapYear year then 29 else 28)
  else if [4, 6, 9, 11].contains month then 30 else 31

def afterDate? (s : Text) : Option Text := do
  let (year, s) ← fixedDigits? 4 s
  let (month, s) ← twoDigits? 1 12 (← after? '-' s)
  let (day, s) ← twoDigits? 1 31 (← after? '-' s)
  if day ≤ daysOf year month then some s else none

def afterTime? (s : Text) : Option Text := do
  let (_, s) ← twoDigits? 0 23 s
  let (_, s) ← twoDigits? 0 59 (← after? ':' s)
  let (_, s) ← twoDigits? 0 60 (← after? ':' s)
  match s with
  | '.' :: fraction =>
    if fraction.head?.any Text.isDigit then return fraction.dropWhile Text.isDigit else none
  | _ => return s

def afterOffset? (s : Text) : Option Text :=
  match s with
  | [] => some []
  | c :: rest =>
    if c == 'Z' || c == 'z' then some rest
    else if c == '+' || c == '-' then do
      let (_, s) ← twoDigits? 0 23 rest
      let (_, s) ← twoDigits? 0 59 (← after? ':' s)
      return s
    else some s

def afterDateTime? (s : Text) : Option Text :=
  match afterDate? s with
  | some rest =>
    match rest with
    | c :: time =>
      if c == 'T' || c == 't' || c == ' ' then
        match afterTime? time with
        | some rest => afterOffset? rest
        | none => some rest
      else some rest
    | [] => some []
  | none => afterTime? s

/-- Digits with single underscores between them: the digits and what follows. A digit must come next
where `due` is set. -/
def digitsFrom? (isDigit : Char → Bool) (due : Bool) : Text → Option (Text × Text)
  | [] => if due then none else some ([], [])
  | c :: rest =>
    if isDigit c then (digitsFrom? isDigit false rest).map fun (ds, after) => (c :: ds, after)
    else if due then none
    else if c == '_' then digitsFrom? isDigit true rest
    else some ([], c :: rest)

def groupedDigits? (isDigit : Char → Bool) (s : Text) : Option (Text × Text) :=
  digitsFrom? isDigit true s

/-- The digits of a decimal integer; a zero in front stands alone. -/
def decimalDigits? : Text → Option (Text × Text)
  | '0' :: rest => some (['0'], rest)
  | s => groupedDigits? Text.isDigit s

def int64? (n : Int) : Option Value :=
  if -(Nat.pow 2 63 : Int) ≤ n ∧ n < Nat.pow 2 63 then some (.integer n) else none

def basedInteger? (base : Nat) (s : Text) : Option (Value × Text) := do
  let (digits, rest) ← groupedDigits? (fun c => ((hexDigit? c).filter (· < base)).isSome) s
  return (← int64? (← digitsValue? base digits), rest)

def exponent? (s : Text) : Option (Int × Text) :=
  match s with
  | [] => some (0, [])
  | c :: rest =>
    if c == 'e' || c == 'E' then
      let (negative, digits) := match rest with
        | '+' :: r => (false, r)
        | '-' :: r => (true, r)
        | r => (false, r)
      do
        let (digits, rest) ← groupedDigits? Text.isDigit digits
        let n ← digitsValue? 10 digits
        return (if negative then -(n : Int) else n, rest)
    else some (0, s)

/-- A float of the given digits. Only a positive one may not be too large. -/
def float? (negative : Bool) (digits : Text) (exponent : Int) : Option Value := do
  let x := Binary64.ofDecimal negative (← digitsValue? 10 digits) exponent
  if x = .infinite false then none else some (.float x)

def decimal? (negative : Bool) (s : Text) : Option (Value × Text) :=
  match s with
  | 'i' :: 'n' :: 'f' :: rest => some (.float (.infinite negative), rest)
  | 'n' :: 'a' :: 'n' :: rest => some (.float .nan, rest)
  | _ => do
    let (whole, rest) ← decimalDigits? s
    match rest with
    | '.' :: rest =>
      let (fraction, rest) ← groupedDigits? Text.isDigit rest
      let (e, rest) ← exponent? rest
      return (← float? negative (whole ++ fraction) (e - fraction.length), rest)
    | c :: _ =>
      if c == 'e' || c == 'E' then
        let (e, rest) ← exponent? rest
        return (← float? negative whole e, rest)
      else
        let n ← digitsValue? 10 whole
        return (← int64? (if negative then -(n : Int) else n), rest)
    | [] =>
      let n ← digitsValue? 10 whole
      return (← int64? (if negative then -(n : Int) else n), [])

def number? (s : Text) : Option (Value × Text) :=
  match afterDateTime? s with
  | some rest => some (.datetime, rest)
  | none =>
    match s with
    | '+' :: rest => decimal? false rest
    | '-' :: rest => decimal? true rest
    | '0' :: 'x' :: rest => basedInteger? 16 rest
    | '0' :: 'o' :: rest => basedInteger? 8 rest
    | '0' :: 'b' :: rest => basedInteger? 2 rest
    | _ => decimal? false s

def afterWord? (word : String) (s : Text) : Option Text := Text.after? word s

def scalar? (s : Text) : Option (Value × Text) :=
  match s with
  | [] => none
  | c :: _ =>
    if c == '"' || c == '\'' then (string? s).map fun (t, rest) => (.string t, rest)
    else if c == 't' then (afterWord? "true" s).map fun rest => (.boolean true, rest)
    else if c == 'f' then (afterWord? "false" s).map fun rest => (.boolean false, rest)
    else number? s

end NotebookPages.Toml
