import PropAtlas.Number.Double

/-!
The shortest decimal text of a double: the fewest digits that read back as the same number, and of
those the nearest to it.
-/

namespace PropAtlas.Shortest

/-- The decimal number `0.d₁d₂… · 10 ^ point`. -/
structure Decimal where
  digits : Nat
  point : Int
  deriving DecidableEq, Repr

/-- The least `p` with `num / den < 10 ^ p`, looked for upwards from `p`. -/
def pointFrom (num den : Nat) : (fuel : Nat) → Int → Int
  | 0, p => p
  | fuel + 1, p =>
    let below :=
      if 0 ≤ p then num < den * Nat.pow 10 p.toNat else num * Nat.pow 10 (-p).toNat < den
    if below then p else pointFrom num den fuel (p + 1)

def point (num den : Nat) : Int := pointFrom num den 700 (-330)

/-- The two neighbours of `num / den` among the multiples of `10 ^ e`, the nearer first; of two
equally near ones the even one. -/
def neighbours (num den : Nat) (e : Int) : List Nat :=
  let (a, b) :=
    if 0 ≤ e then (num, den * Nat.pow 10 e.toNat) else (num * Nat.pow 10 (-e).toNat, den)
  let q := a / b
  if roundDiv a b = q then [q, q + 1] else [q + 1, q]

def readsAs (x : Double) (n : Nat) (e : Int) : Bool :=
  Double.ofDecimal x.isNegative n e == x

/-- The first of the grids with `count`, `count + 1`, … digits that holds a number which reads back. -/
def search (x : Double) (num den : Nat) (p : Int) : (fuel count : Nat) → Decimal
  | 0, _ => ⟨0, p⟩
  | fuel + 1, count =>
    let e := p - count
    match (neighbours num den e).find? (fun n => readsAs x n e) with
    | some n =>
      if n = Nat.pow 10 count then ⟨1, p + 1⟩ else ⟨n, p⟩
    | none => search x num den p fuel (count + 1)

def decimal (x : Double) : Decimal :=
  let (num, den) := x.ratio
  search x num den (point num den) 17 1

/-- How a double is written: positionally for a point up to sixteen places after the first digit or
three before it, and always with a fraction; otherwise with a signed exponent of two digits or more. -/
def text (x : Double) : String :=
  let sign := if x.isNegative then "-" else ""
  match x with
  | .infinite _ => sign ++ "inf"
  | .finite _ _ _ =>
    if x.isZero then sign ++ "0.0"
    else
      let d := decimal x
      let ds := (Nat.toDigits 10 d.digits)
      let pad (n : Nat) : List Char := List.replicate n '0'
      if -4 < d.point && d.point ≤ 16 then
        if d.point ≤ 0 then
          sign ++ "0." ++ String.ofList (pad (-d.point).toNat ++ ds)
        else
          let whole := d.point.toNat
          if ds.length ≤ whole then
            sign ++ String.ofList (ds ++ pad (whole - ds.length)) ++ ".0"
          else
            sign ++ String.ofList (ds.take whole) ++ "." ++ String.ofList (ds.drop whole)
      else
        let e := d.point - 1
        let mark := if e < 0 then "e-" else "e+"
        let es := Nat.toDigits 10 e.natAbs
        let es := if es.length < 2 then '0' :: es else es
        let fraction := match ds.drop 1 with
          | [] => ""
          | rest => "." ++ String.ofList rest
        sign ++ String.ofList (ds.take 1) ++ fraction ++ mark ++ String.ofList es

end PropAtlas.Shortest
