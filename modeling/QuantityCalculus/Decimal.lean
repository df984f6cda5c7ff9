import QuantityCalculus.Binary64

/-!
Numbers in decimal digits. A double is written with the fewest digits that read back as it, always
positionally and never with an exponent; an integral value has no point. On each decimal grid, from
coarse to fine, only the two points next to the value can read back first, so the search compares
these two with the ends of the interval of reals that round to the double.
-/
namespace QuantityCalculus.Decimal
open Binary64

def natural (n : Nat) : List Char :=
  Nat.toDigits 10 n

def integer (n : Int) : List Char :=
  if n < 0 then '-' :: natural n.natAbs else natural n.natAbs

section Shortest

/-- The number `digits · 10 ^ exponent`. -/
structure Scaled where
  digits : Nat
  exponent : Int
  deriving DecidableEq, Repr

/-- Numerators, over one common denominator, of a value and of the ends of its interval. -/
structure Interval where
  low : Nat
  value : Nat
  high : Nat
  denominator : Nat
  closed : Bool
  deriving DecidableEq, Repr

/-- The reals that round to `significand · 2 ^ exponent`, counted in units of `10 ^ grid`.
Below a power of two the doubles lie twice as close, except at the least exponent. -/
def roundingInterval (p : Parts) (grid : Int) : Interval :=
  let scale := Nat.pow 2 (p.exponent - 2).toNat * Nat.pow 10 (-grid).toNat
  let below := if p.significand = Nat.pow 2 52 ∧ -1074 < p.exponent then 1 else 2
  { low := (4 * p.significand - below) * scale
    value := 4 * p.significand * scale
    high := (4 * p.significand + 2) * scale
    denominator := Nat.pow 2 (2 - p.exponent).toNat * Nat.pow 10 grid.toNat
    closed := p.significand % 2 = 0 }

def Interval.contains (i : Interval) (n : Nat) : Bool :=
  let point := n * i.denominator
  if i.closed then i.low ≤ point && point ≤ i.high else i.low < point && point < i.high

/-- The grid point in the interval that is nearer to the value; of two equally near the upper. -/
def Interval.nearest? (i : Interval) : Option Nat :=
  let below := i.value / i.denominator
  let above := below + 1
  if i.contains below then
    if i.contains above ∧ (below + above) * i.denominator ≤ 2 * i.value then some above
    else some below
  else if i.contains above then some above
  else none

/-- A grid with a step above every positive value smaller than `2 ^ (log + 1)`. -/
def coarsestGrid (log : Int) : Int :=
  log * 30103 / 100000 + 2

/-- The shortest digits of a positive double; twenty grids reach seventeen digits. -/
def shortest (p : Parts) : Scaled :=
  let start := coarsestGrid (Nat.log2 p.significand + p.exponent)
  let candidates := (List.range 20).findSome? fun (step : Nat) =>
    let grid := start - step
    (roundingInterval p grid).nearest?.map fun n => ⟨n, grid⟩
  candidates.getD ⟨0, 0⟩

end Shortest

section Positional

/-- The digits with a point `places` places from the right. -/
def withPoint (digits : List Char) (places : Nat) : List Char :=
  if places < digits.length then
    digits.take (digits.length - places) ++ '.' :: digits.drop (digits.length - places)
  else '0' :: '.' :: (List.replicate (places - digits.length) '0' ++ digits)

/-- Trailing zeros of the digits move into the exponent, so that none is written after a point. -/
def Scaled.characters (s : Scaled) : List Char :=
  let digits := natural s.digits
  let zeros := (digits.reverse.takeWhile (· = '0')).length
  let digits := digits.take (digits.length - zeros)
  match s.exponent + zeros with
  | .ofNat n => digits ++ List.replicate n '0'
  | .negSucc n => withPoint digits (n + 1)

def magnitude (p : Parts) : List Char :=
  if p.significand = 0 then ['0'] else (shortest p).characters

def number (x : Float) : String :=
  match parts? x with
  | some p => String.ofList (if p.negative then '-' :: magnitude p else magnitude p)
  | none => if x.isNaN then "NaN" else if signBit x then "-inf" else "inf"

end Positional

end QuantityCalculus.Decimal
