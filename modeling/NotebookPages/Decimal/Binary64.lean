/-!
Binary floating-point numbers of 64 bits as exact values, and rounding to them: a positive rational is
rounded to the nearest such number, and a tie goes to the even mantissa.
-/

namespace NotebookPages

/-- A double: `mantissa · 2 ^ exponent` with a sign, or one of the special values. -/
inductive Binary64 where
  | finite (negative : Bool) (mantissa : Nat) (exponent : Int)
  | infinite (negative : Bool)
  | nan
  deriving DecidableEq, Repr

namespace Binary64

def leastExponent : Int := -1074

def greatestExponent : Int := 971

def zero (negative : Bool) : Binary64 := .finite negative 0 leastExponent

/-- Nearest natural number to `num / den`, a tie going to the even one. -/
def divideEven (num den : Nat) : Nat :=
  let q := num / den
  let twice := 2 * (num % den)
  if den < twice || (twice == den && q % 2 == 1) then q + 1 else q

def unitsOf (num den : Nat) (e : Int) : Nat :=
  if 0 ≤ e then divideEven num (den * Nat.pow 2 e.toNat) else divideEven (num * Nat.pow 2 (-e).toNat) den

/-- The exponent at which `num / den` has 53 bits before the point, unless that is too small. -/
def exponentFor (num den : Nat) : Int :=
  let guess := (num.log2 : Int) - den.log2 - 52
  let fits := if 0 ≤ guess then den * Nat.pow 2 (guess.toNat + 52) ≤ num
    else den * Nat.pow 2 52 ≤ num * Nat.pow 2 (-guess).toNat
  max leastExponent (if fits then guess else guess - 1)

def ofRatio (negative : Bool) (num den : Nat) : Binary64 :=
  if num = 0 then zero negative
  else
    let e := exponentFor num den
    let m := unitsOf num den e
    let (m, e) := if m = Nat.pow 2 53 then (Nat.pow 2 52, e + 1) else (m, e)
    if greatestExponent < e then .infinite negative else .finite negative m e

def digitCount (n : Nat) : Nat := (Nat.toDigits 10 n).length

/-- The double nearest to `digits · 10 ^ exponent`. Values far outside the range need no arithmetic. -/
def ofDecimal (negative : Bool) (digits : Nat) (exponent : Int) : Binary64 :=
  if digits = 0 then zero negative
  else
    let magnitude := exponent + digitCount digits
    if 400 < magnitude then .infinite negative
    else if magnitude < -400 then zero negative
    else if 0 ≤ exponent then ofRatio negative (digits * Nat.pow 10 exponent.toNat) 1
    else ofRatio negative digits (Nat.pow 10 (-exponent).toNat)

def ratio (mantissa : Nat) (exponent : Int) : Nat × Nat :=
  if 0 ≤ exponent then (mantissa * Nat.pow 2 exponent.toNat, 1)
  else (mantissa, Nat.pow 2 (-exponent).toNat)

/-- The double nearest to the product of a double and `10 ^ e`, itself rounded to a double. -/
def scaleUp (x : Binary64) (e : Nat) : Binary64 :=
  match x, ofDecimal false 1 e with
  | .finite negative m k, .finite _ m' k' =>
    let (a, b) := ratio m k
    let (a', b') := ratio m' k'
    ofRatio negative (a * a') (b * b')
  | x, _ => x

/-- The double nearest to the quotient of a double by `10 ^ e`, itself rounded to a double. -/
def scaleDown (x : Binary64) (e : Nat) : Binary64 :=
  match x, ofDecimal false 1 e with
  | .finite negative m k, .finite _ m' k' =>
    let (a, b) := ratio m k
    let (a', b') := ratio m' k'
    ofRatio negative (a * b') (b * a')
  | x, _ => x

def isFinite : Binary64 → Bool
  | .finite .. => true
  | _ => false

def isZero : Binary64 → Bool
  | .finite _ m _ => m == 0
  | _ => false

/-- Equality of numbers: the two zeros are equal, and so are not-a-numbers. -/
def same (x y : Binary64) : Bool := x == y || (x.isZero && y.isZero)

end Binary64
end NotebookPages
