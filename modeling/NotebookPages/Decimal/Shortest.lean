import NotebookPages.Decimal.Binary64
import NotebookPages.Text.Basic

/-!
The fewest decimal digits that read back as a given double. Grids of one, two, … seventeen digits are
tried in turn; on each only the two neighbours of the value can qualify. Of two that do the nearer
is taken, and the even one if both are equally near.
-/

namespace NotebookPages

namespace Binary64

structure Digits where
  digits : Nat
  exponent : Int
  deriving DecidableEq, Repr

/-- `a / b ≤ c / d`, or `<` where the bound is excluded. -/
private def below (inclusive : Bool) (a b c d : Nat) : Bool :=
  if inclusive then a * d ≤ c * b else a * d < c * b

private def Digits.ratio (x : Digits) : Nat × Nat :=
  if 0 ≤ x.exponent then (x.digits * Nat.pow 10 x.exponent.toNat, 1)
  else (x.digits, Nat.pow 10 (-x.exponent).toNat)

/-- The decimal lies among the reals that round to `mantissa · 2 ^ exponent`. Below a power of two
the doubles lie twice as close. -/
def readsBack (mantissa : Nat) (exponent : Int) (x : Digits) : Bool :=
  let even := mantissa % 2 == 0
  let (n, d) := x.ratio
  let (lowN, lowD) :=
    if mantissa = Nat.pow 2 52 ∧ leastExponent < exponent then
      Binary64.ratio (4 * mantissa - 1) (exponent - 2)
    else Binary64.ratio (2 * mantissa - 1) (exponent - 1)
  let (highN, highD) := Binary64.ratio (2 * mantissa + 1) (exponent - 1)
  below even lowN lowD n d && below even n d highN highD

/-- The exponent `t` with `10 ^ t ≤ num / den < 10 ^ (t + 1)`. -/
def tens (num den : Nat) : Int :=
  let guess := (digitCount num : Int) - digitCount den
  let reached := if 0 ≤ guess then den * Nat.pow 10 guess.toNat ≤ num
    else den ≤ num * Nat.pow 10 (-guess).toNat
  if reached then guess else guess - 1

/-- The neighbours of the value on the grid of `10 ^ t` that read back, the nearer first. -/
def neighbour? (mantissa : Nat) (exponent t : Int) : Option Digits :=
  let (n, d) := Binary64.ratio mantissa exponent
  let (n, d) := if 0 ≤ t then (n, d * Nat.pow 10 t.toNat) else (n * Nat.pow 10 (-t).toNat, d)
  let q := n / d
  let twice := 2 * (n % d)
  let lower : Digits := ⟨q, t⟩
  let upper : Digits := ⟨q + 1, t⟩
  let nearFirst := if twice < d || (twice == d && q % 2 == 0) then [lower, upper] else [upper, lower]
  nearFirst.find? (readsBack mantissa exponent)

/-- The first grid with a neighbour, starting from the grid of `10 ^ t` and getting finer. -/
def shortestFrom (mantissa : Nat) (exponent : Int) : Nat → Int → Digits
  | 0, t => ⟨0, t⟩
  | tries + 1, t =>
    match neighbour? mantissa exponent t with
    | some x => x
    | none => shortestFrom mantissa exponent tries (t - 1)

def stripZeros : Nat → Digits → Digits
  | 0, x => x
  | fuel + 1, x =>
    if x.digits ≠ 0 ∧ x.digits % 10 = 0 then stripZeros fuel ⟨x.digits / 10, x.exponent + 1⟩ else x

def shortest (mantissa : Nat) (exponent : Int) : Digits :=
  let (n, d) := Binary64.ratio mantissa exponent
  stripZeros 20 (shortestFrom mantissa exponent 18 (tens n d))

structure Exponents where
  plus : Text
  deriving DecidableEq, Repr

/-- The shortest text of a positive double: positional from 1e-5 up to 1e16, else with an exponent. -/
def magnitudeText (style : Exponents) (mantissa : Nat) (exponent : Int) : Text :=
  let x := shortest mantissa exponent
  let digits := Text.ofNat x.digits
  let point : Int := digits.length + x.exponent
  if 0 ≤ x.exponent ∧ point ≤ 16 then
    digits ++ List.replicate x.exponent.toNat '0' ++ ".0"
  else if 0 < point ∧ point ≤ 16 then
    digits.take point.toNat ++ "." ++ digits.drop point.toNat
  else if -5 < point ∧ point ≤ 0 then
    "0." ++ List.replicate (-point).toNat '0' ++ digits
  else
    let fraction : Text := if digits.length = 1 then "" else '.' :: digits.tail
    let sign : Text := if 0 ≤ point - 1 then style.plus else ""
    digits.take 1 ++ fraction ++ "e" ++ sign ++ Text.ofInt (point - 1)

def finiteText (style : Exponents) (negative : Bool) (mantissa : Nat) (exponent : Int) : Text :=
  let magnitude : Text := if mantissa = 0 then "0.0" else magnitudeText style mantissa exponent
  if negative then '-' :: magnitude else magnitude

end Binary64
end NotebookPages
