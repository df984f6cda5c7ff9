/-!
Doubles read as exact numbers: a sign, an integer significand and a power of two.
-/
namespace QuantityCalculus.Binary64

/-- A finite double is `significand · 2 ^ exponent`, negated when `negative` holds. -/
structure Parts where
  negative : Bool
  significand : Nat
  exponent : Int
  deriving DecidableEq, Repr

def signBit (x : Float) : Bool :=
  Nat.pow 2 63 ≤ x.toBits.toNat

def exponentField (x : Float) : Nat :=
  x.toBits.toNat / Nat.pow 2 52 % Nat.pow 2 11

def fractionField (x : Float) : Nat :=
  x.toBits.toNat % Nat.pow 2 52

/-- Infinities and NaN have no parts. -/
def parts? (x : Float) : Option Parts :=
  if exponentField x = 2047 then none
  else if exponentField x = 0 then some ⟨signBit x, fractionField x, -1074⟩
  else some ⟨signBit x, Nat.pow 2 52 + fractionField x, exponentField x - 1075⟩

def Parts.magnitude? (p : Parts) : Option Nat :=
  if 0 ≤ p.exponent then some (p.significand * Nat.pow 2 p.exponent.toNat)
  else
    let unit := Nat.pow 2 (-p.exponent).toNat
    if p.significand % unit = 0 then some (p.significand / unit) else none

/-- The integer that a double denotes exactly, if it denotes one. -/
def integer? (x : Float) : Option Int := do
  let p ← parts? x
  let n ← p.magnitude?
  return if p.negative then -(n : Int) else n

/-- One with the sign of `x`; both zeros have a sign, NaN has none and is kept. -/
def signum (x : Float) : Float :=
  if x.isNaN then x else if signBit x then -1.0 else 1.0

end QuantityCalculus.Binary64
