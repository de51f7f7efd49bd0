/-!
Floating-point numbers of 64 bits, held exactly. A finite one is a significand times a power of two;
arithmetic on ratios of natural numbers is exact, and `ofRatio` rounds a ratio to the nearest number,
a tie to the even significand.
-/

namespace PropAtlas

/-- A double: a finite value `± significand · 2 ^ exponent`, or an infinity. -/
inductive Double where
  | finite (negative : Bool) (significand : Nat) (exponent : Int)
  | infinite (negative : Bool)
  deriving DecidableEq, Repr

/-- The quotient of two numbers rounded to the nearest whole one, a half to the even neighbour. -/
def roundDiv (num den : Nat) : Nat :=
  let q := num / den
  let r := num % den
  if 2 * r < den || (2 * r == den && q % 2 == 0) then q else q + 1

namespace Double

def minExponent : Int := -1074

def maxExponent : Int := 971

/-- `n · 2 ^ e` as a ratio. -/
def scaled (n : Nat) (e : Int) : Nat × Nat :=
  if 0 ≤ e then (n * Nat.pow 2 e.toNat, 1) else (n, Nat.pow 2 (-e).toNat)

/-- The greatest `f` with `2 ^ f ≤ num / den`. -/
def floorLog (num den : Nat) : Int :=
  let k : Int := (num.log2 : Int) - (den.log2 : Int)
  let (a, b) := scaled 1 k
  if a * den ≤ num * b then k else k - 1

def ofRatio (negative : Bool) (num den : Nat) : Double :=
  if num = 0 then .finite negative 0 minExponent
  else
    let e := max (floorLog num den - 52) minExponent
    let (a, b) := scaled 1 e
    let m := roundDiv (num * b) (den * a)
    let (m, e) := if m = Nat.pow 2 53 then (Nat.pow 2 52, e + 1) else (m, e)
    if maxExponent < e then .infinite negative else .finite negative m e

/-- The absolute value of a finite double as a ratio; zero for an infinity. -/
def ratio : Double → Nat × Nat
  | .finite _ m e => scaled m e
  | .infinite _ => (0, 1)

def isNegative : Double → Bool
  | .finite negative _ _ => negative
  | .infinite negative => negative

/-- The double nearest to `± digits · 10 ^ exponent`. Exponents far outside the range give zero or an
infinity at once. -/
def ofDecimal (negative : Bool) (digits : Nat) (exponent : Int) : Double :=
  if digits = 0 then .finite negative 0 minExponent
  else
    let width : Int := (Nat.toDigits 10 digits).length
    if 400 < width + exponent then .infinite negative
    else if width + exponent < -400 then .finite negative 0 minExponent
    else if 0 ≤ exponent then ofRatio negative (digits * Nat.pow 10 exponent.toNat) 1
    else ofRatio negative digits (Nat.pow 10 (-exponent).toNat)

def toInt? : Double → Option Int
  | .infinite _ => none
  | .finite negative m e =>
    let (a, b) := scaled m e
    if a % b = 0 then some (if negative then -((a / b : Nat) : Int) else ((a / b : Nat) : Int))
    else none

def isZero : Double → Bool
  | .finite _ m _ => m == 0
  | .infinite _ => false

def scale (x : Double) (factor : Nat) : Double :=
  match x with
  | .infinite negative => .infinite negative
  | .finite negative m e =>
    let (a, b) := scaled m e
    ofRatio negative (a * factor) b

/-- A double rounded to a number of decimal places, a half to the even neighbour. -/
def roundPlaces (x : Double) (places : Nat) : Double :=
  match x with
  | .infinite negative => .infinite negative
  | .finite negative m e =>
    let (a, b) := scaled m e
    ofRatio negative (roundDiv (a * Nat.pow 10 places) b) (Nat.pow 10 places)

end Double

end PropAtlas
