import QuantityCalculus.Binary64
import QuantityCalculus.CompoundUnit.Basic

/-!
The algebra of compound units. Every operation acts on the exponents symbol by symbol and has
no result as soon as one exponent has none.
-/
namespace QuantityCalculus

namespace CompoundUnit

/-- The unit with exponent `f s` at each listed symbol `s` and zero elsewhere. -/
def tabulate? (f : String → Option Exponent) : List String → CompoundUnit → Option CompoundUnit
  | [], u => some u
  | symbol :: rest, u => do tabulate? f rest (u.set symbol (← f symbol))

/-- The symbols of `u`, then those of `v` alone. -/
def symbolsOfBoth (u v : CompoundUnit) : List String :=
  u.symbols ++ v.symbols.filter fun symbol => symbol ∉ u.symbols

def combine? (u v : CompoundUnit) (op : Exponent → Exponent → Option Exponent) :
    Option CompoundUnit :=
  tabulate? (fun symbol => op (u.exponent symbol) (v.exponent symbol)) (symbolsOfBoth u v)
    dimensionless

def map? (u : CompoundUnit) (f : Exponent → Option Exponent) : Option CompoundUnit :=
  tabulate? (fun symbol => f (u.exponent symbol)) u.symbols dimensionless

def multiply? (u v : CompoundUnit) : Option CompoundUnit :=
  combine? u v Exponent.add?

def divide? (u v : CompoundUnit) : Option CompoundUnit :=
  combine? u v Exponent.sub?

def scale? (u : CompoundUnit) (factor : Exponent) : Option CompoundUnit :=
  map? u fun e => e.mul? factor

def root? (u : CompoundUnit) (index : Nat) : Option CompoundUnit :=
  map? u fun e => e.div? (.ofInt index)

end CompoundUnit

namespace Exponent

/-- Doubles of at least this magnitude are too large for a numerator. -/
def numeratorBound : Float :=
  9223372036854775808.0

/-- How far a power may lie from the fraction that it stands for. -/
def tolerance : Float :=
  1e-9

def largestDenominator : Nat :=
  100

/-- The fraction over `d` next to `x`, if it lies within the tolerance. -/
def overDenominator? (x : Float) (d : Nat) : Option Exponent :=
  let numerator := (x * Float.ofNat d).round
  if numerator.abs < numeratorBound ∧ (numerator / Float.ofNat d - x).abs ≤ tolerance then
    (Binary64.integer? numerator).map fun n => reduce n d
  else none

/-- The fraction with the least denominator that lies within the tolerance. -/
def ofFloat? (x : Float) : Option Exponent :=
  if x.isFinite then
    (List.range largestDenominator).findSome? fun d => overDenominator? x (d + 1)
  else none

end Exponent

namespace CompoundUnit

/-- The unit of a power with a floating exponent; the dimensionless unit takes every power. -/
def power? (u : CompoundUnit) (x : Float) : Option CompoundUnit :=
  if u.isDimensionless then some dimensionless
  else do u.scale? (← Exponent.ofFloat? x)

end CompoundUnit

end QuantityCalculus
