import NotebookPages.Json.Number

/-!
Reading JSON from bytes. A value is read, or passed over without being kept: what is passed over need
not be nested within the limit, and its strings need not be texts.
-/

namespace NotebookPages.Json

def isSpace (b : UInt8) : Bool := b == 0x20 || b == 0x09 || b == 0x0A || b == 0x0D

def skipSpace (s : Bytes) : Bytes := s.dropWhile isSpace

def hexDigit? (b : UInt8) : Option Nat :=
  if 0x30 ≤ b && b ≤ 0x39 then some (b.toNat - 0x30)
  else if 0x41 ≤ b && b ≤ 0x46 then some (b.toNat - 0x37)
  else if 0x61 ≤ b && b ≤ 0x66 then some (b.toNat - 0x57)
  else none

def hex4? : Bytes → Option Nat
  | a :: b :: c :: d :: _ => do
    return (((← hexDigit? a) * 16 + (← hexDigit? b)) * 16 + (← hexDigit? c)) * 16 + (← hexDigit? d)
  | _ => none

def simpleEscape? (b : UInt8) : Option UInt8 :=
  match b with
  | 0x22 => some 0x22
  | 0x5C => some 0x5C
  | 0x2F => some 0x2F
  | 0x62 => some 0x08
  | 0x66 => some 0x0C
  | 0x6E => some 0x0A
  | 0x72 => some 0x0D
  | 0x74 => some 0x09
  | _ => none

/-- The character of a `u` escape and how many bytes it takes after the `u`. Surrogates come in
pairs. -/
def unicodeEscape? (s : Bytes) : Option (Char × Nat) :=
  match hex4? s with
  | none => none
  | some high =>
    if 0xD800 ≤ high && high < 0xDC00 then
      match s.drop 4 with
      | 0x5C :: 0x75 :: t =>
        match hex4? t with
        | some low =>
          if 0xDC00 ≤ low && low < 0xE000 then
            some (Char.ofNat (0x10000 + (high - 0xD800) * 1024 + (low - 0xDC00)), 10)
          else none
        | none => none
      | _ => none
    else if 0xDC00 ≤ high && high < 0xE000 then none
    else some (Char.ofNat high, 4)

/-- The bytes of a string up to its closing quote, escapes resolved; `done` holds them in reverse. -/
def stringBytes? (done : Bytes) (skip : Nat) : Bytes → Option (Bytes × Bytes)
  | [] => none
  | b :: rest =>
    match skip with
    | n + 1 => stringBytes? done n rest
    | 0 =>
      if b == 0x22 then some (done.reverse, rest)
      else if b < 0x20 then none
      else if b == 0x5C then
        match rest with
        | [] => none
        | 0x75 :: code =>
          match unicodeEscape? code with
          | some (c, n) => stringBytes? ((String.utf8EncodeChar c).reverse ++ done) (n + 1) rest
          | none => none
        | letter :: _ =>
          match simpleEscape? letter with
          | some c => stringBytes? (c :: done) 1 rest
          | none => none
      else stringBytes? (b :: done) 0 rest

def readString? (s : Bytes) : Option (Text × Bytes) :=
  match stringBytes? [] 0 s with
  | some (bytes, rest) => (Text.decode? bytes).map fun t => (t, rest)
  | none => none

def afterString? (skip : Nat) : Bytes → Option Bytes
  | [] => none
  | b :: rest =>
    match skip with
    | n + 1 => afterString? n rest
    | 0 =>
      if b == 0x22 then some rest
      else if b < 0x20 then none
      else if b == 0x5C then
        match rest with
        | [] => none
        | 0x75 :: code => if (hex4? code).isSome then afterString? 5 rest else none
        | letter :: _ => if (simpleEscape? letter).isSome then afterString? 1 rest else none
      else afterString? 0 rest

def afterWord? (word : String) (s : Bytes) : Option Bytes := (Text.encode word).isPrefixOf? s

mutual

/-- Read a value that may hold containers nested `depth` deep. `fuel` bounds the steps. -/
def readValue? : Nat → Nat → Bytes → Option (Json × Bytes)
  | 0, _, _ => none
  | fuel + 1, depth, s =>
    match skipSpace s with
    | [] => none
    | 0x22 :: rest => (readString? rest).map fun (t, rest) => (string t, rest)
    | 0x5B :: rest =>
      if depth = 0 then none
      else match skipSpace rest with
        | 0x5D :: after => some (array [], after)
        | body => (readItems? fuel (depth - 1) body).map fun (items, rest) => (array items, rest)
    | 0x7B :: rest =>
      if depth = 0 then none
      else match skipSpace rest with
        | 0x7D :: after => some (object [], after)
        | body =>
          (readMembers? fuel (depth - 1) body).map fun (ms, rest) => (object (sorted ms), rest)
    | 0x6E :: rest => (afterWord? "ull" rest).map fun rest => (null, rest)
    | 0x74 :: rest => (afterWord? "rue" rest).map fun rest => (bool true, rest)
    | 0x66 :: rest => (afterWord? "alse" rest).map fun rest => (bool false, rest)
    | 0x2D :: rest => readNumber? true rest
    | rest => readNumber? false rest

def readItems? : Nat → Nat → Bytes → Option (List Json × Bytes)
  | 0, _, _ => none
  | fuel + 1, depth, s =>
    match readValue? fuel depth s with
    | none => none
    | some (item, rest) =>
      match skipSpace rest with
      | 0x5D :: after => some ([item], after)
      | 0x2C :: more => (readItems? fuel depth more).map fun (items, rest) => (item :: items, rest)
      | _ => none

def readMembers? : Nat → Nat → Bytes → Option (List (Text × Json) × Bytes)
  | 0, _, _ => none
  | fuel + 1, depth, s =>
    match skipSpace s with
    | 0x22 :: rest =>
      match readString? rest with
      | none => none
      | some (key, rest) =>
        match skipSpace rest with
        | 0x3A :: rest =>
          match readValue? fuel depth rest with
          | none => none
          | some (value, rest) =>
            match skipSpace rest with
            | 0x7D :: after => some ([(key, value)], after)
            | 0x2C :: more =>
              (readMembers? fuel depth more).map fun (ms, rest) => ((key, value) :: ms, rest)
            | _ => none
        | _ => none
    | _ => none

end

mutual

def afterValue? : Nat → Bytes → Option Bytes
  | 0, _ => none
  | fuel + 1, s =>
    match skipSpace s with
    | [] => none
    | 0x22 :: rest => afterString? 0 rest
    | 0x5B :: rest =>
      match skipSpace rest with
      | 0x5D :: after => some after
      | body => afterItems? fuel body
    | 0x7B :: rest =>
      match skipSpace rest with
      | 0x7D :: after => some after
      | body => afterMembers? fuel body
    | 0x6E :: rest => afterWord? "ull" rest
    | 0x74 :: rest => afterWord? "rue" rest
    | 0x66 :: rest => afterWord? "alse" rest
    | 0x2D :: rest => afterNumber? rest
    | rest => afterNumber? rest

def afterItems? : Nat → Bytes → Option Bytes
  | 0, _ => none
  | fuel + 1, s =>
    match afterValue? fuel s with
    | none => none
    | some rest =>
      match skipSpace rest with
      | 0x5D :: after => some after
      | 0x2C :: more => afterItems? fuel more
      | _ => none

def afterMembers? : Nat → Bytes → Option Bytes
  | 0, _ => none
  | fuel + 1, s =>
    match skipSpace s with
    | 0x22 :: rest =>
      match afterString? 0 rest with
      | none => none
      | some rest =>
        match skipSpace rest with
        | 0x3A :: rest =>
          match afterValue? fuel rest with
          | none => none
          | some rest =>
            match skipSpace rest with
            | 0x7D :: after => some after
            | 0x2C :: more => afterMembers? fuel more
            | _ => none
        | _ => none
    | _ => none

end

def depthLimit : Nat := 127

def read? (s : Bytes) : Option Json :=
  match readValue? (s.length + 1) depthLimit s with
  | some (value, rest) => if (skipSpace rest).isEmpty then some value else none
  | none => none

end NotebookPages.Json
