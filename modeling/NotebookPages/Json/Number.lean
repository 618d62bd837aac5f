import NotebookPages.Json.Value

/-!
Reading JSON numbers. Integers of 64 bits are kept exactly; every other number becomes a double by
way of its first digits that fit 64 bits and a power of ten.
-/

namespace NotebookPages.Json

def digit? (b : UInt8) : Option Nat :=
  if 0x30 ≤ b && b ≤ 0x39 then some (b.toNat - 0x30) else none

def significandLimit : Nat := Nat.pow 2 64 - 1

def exponentLimit : Nat := Nat.pow 2 31 - 1

/-- The digits of a number, and what follows them: `significand · 10 ^ exponent`. -/
structure Decimal where
  significand : Nat
  exponent : Int
  rest : Bytes

/-- Leading digits as long as they fit; how many were read, and what follows them. -/
def readDigits (limit value count : Nat) : Bytes → Nat × Nat × Bytes
  | [] => (value, count, [])
  | b :: rest =>
    match digit? b with
    | some d =>
      if limit < value * 10 + d then (value, count, b :: rest)
      else readDigits limit (value * 10 + d) (count + 1) rest
    | none => (value, count, b :: rest)

def isDigitByte (b : UInt8) : Bool := (digit? b).isSome

/-- The number that the parts stand for. A power of ten beyond the range of doubles is applied in
steps, and a number too large for a double is refused. -/
def assemble? (negative : Bool) (significand : Nat) (exponent : Int) : Option Binary64 :=
  let start := Binary64.ofDecimal negative significand 0
  let rec apply : Nat → Binary64 → Int → Option Binary64
    | 0, x, _ => some x
    | steps + 1, x, e =>
      if 0 ≤ e then
        if x.isZero then some x
        else if 308 < e then none
        else
          let y := x.scaleUp e.toNat
          if y.isFinite then some y else none
      else if -308 ≤ e then some (x.scaleDown (-e).toNat)
      else if x.isZero then some x
      else apply steps (x.scaleDown 308) (e + 308)
  apply 4 start exponent

/-- Keep a written exponent in 32 bits. -/
def clampExponent (e : Int) : Int := max (-(Nat.pow 2 31 : Int)) (min (Nat.pow 2 31 - 1 : Int) e)

def readExponent? (negative : Bool) (x : Decimal) : Option (Json × Bytes) :=
  let (down, digits) := match x.rest with
    | 0x2B :: rest => (false, rest)
    | 0x2D :: rest => (true, rest)
    | rest => (false, rest)
  if !digits.head?.any isDigitByte then none
  else
    let (e, _, rest) := readDigits exponentLimit 0 0 digits
    if rest.head?.any isDigitByte then
      if x.significand ≠ 0 ∧ !down then none
      else some (float (Binary64.zero negative), rest.dropWhile isDigitByte)
    else
      let exponent := clampExponent (if down then x.exponent - e else x.exponent + e)
      (assemble? negative x.significand exponent).map fun f => (float f, rest)

def finishNumber? (negative : Bool) (x : Decimal) : Option (Json × Bytes) :=
  match x.rest with
  | 0x65 :: rest => readExponent? negative { x with rest := rest }
  | 0x45 :: rest => readExponent? negative { x with rest := rest }
  | rest => (assemble? negative x.significand x.exponent).map fun f => (float f, rest)

/-- The number after its point. Digits that do not fit any more are left out. -/
def readFraction? (negative : Bool) (x : Decimal) : Option (Json × Bytes) :=
  let (significand, count, rest) := readDigits significandLimit x.significand 0 x.rest
  if count = 0 ∧ !rest.head?.any isDigitByte then none
  else finishNumber? negative ⟨significand, x.exponent - count, rest.dropWhile isDigitByte⟩

/-- An integer; minus zero and integers that do not fit 64 bits become doubles. -/
def ofInteger (negative : Bool) (n : Nat) : Json :=
  if negative then
    if n = 0 ∨ Nat.pow 2 63 < n then float (Binary64.ofDecimal true n 0) else integer (-n)
  else integer n

def readNumber? (negative : Bool) (s : Bytes) : Option (Json × Bytes) :=
  match s with
  | [] => none
  | first :: after =>
    if !isDigitByte first || (first == 0x30 && after.head?.any isDigitByte) then none
    else
      let (significand, _, rest) := readDigits significandLimit 0 0 s
      let dropped := rest.takeWhile isDigitByte
      let rest := rest.dropWhile isDigitByte
      match rest with
      | 0x2E :: fraction => readFraction? negative ⟨significand, dropped.length, fraction⟩
      | 0x65 :: _ => finishNumber? negative ⟨significand, dropped.length, rest⟩
      | 0x45 :: _ => finishNumber? negative ⟨significand, dropped.length, rest⟩
      | _ =>
        if dropped.isEmpty then some (ofInteger negative significand, rest)
        else finishNumber? negative ⟨significand, dropped.length, rest⟩

/-- What follows a number, of which only the form is looked at. -/
def afterNumber? (s : Bytes) : Option Bytes :=
  let afterExponent? (s : Bytes) : Option Bytes :=
    match s with
    | b :: rest =>
      if b == 0x65 || b == 0x45 then
        let digits := match rest with
          | 0x2B :: r => r
          | 0x2D :: r => r
          | r => r
        if digits.head?.any isDigitByte then some (digits.dropWhile isDigitByte) else none
      else some s
    | [] => some []
  match s with
  | [] => none
  | first :: after =>
    if !isDigitByte first || (first == 0x30 && after.head?.any isDigitByte) then none
    else match s.dropWhile isDigitByte with
      | 0x2E :: fraction =>
        if fraction.head?.any isDigitByte then afterExponent? (fraction.dropWhile isDigitByte) else none
      | rest => afterExponent? rest

end NotebookPages.Json
