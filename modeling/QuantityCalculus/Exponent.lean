import QuantityCalculus.Decimal

/-!
Exponents of unit symbols: exact fractions held in two 64-bit integers. An operation whose
intermediate results do not all fit has no result, even where its reduced result would fit. Nor has
one that would have to change the sign of a denominator and cannot: checked arithmetic stops a run
there. Only a fraction from a document can have such a denominator.
-/
namespace QuantityCalculus

/-- The integers from `-2 ^ 63` up to `2 ^ 63 - 1`. -/
def InWord (n : Int) : Prop :=
  -9223372036854775808 ≤ n ∧ n < 9223372036854775808

instance (n : Int) : Decidable (InWord n) :=
  inferInstanceAs (Decidable (_ ∧ _))

def inWord? (n : Int) : Option Int :=
  if InWord n then some n else none

@[simp] theorem inWord?_eq_some_iff (n m : Int) : inWord? n = some m ↔ InWord n ∧ n = m := by
  unfold inWord?
  split <;> simp [*]

@[simp] theorem inWord?_eq_none_iff (n : Int) : inWord? n = none ↔ ¬ InWord n := by
  unfold inWord?
  split <;> simp [*]

/-- A fraction as it is stored; the operations below keep it in lowest terms. -/
structure Exponent where
  numerator : Int
  denominator : Int
  deriving DecidableEq, Repr

namespace Exponent

def ofInt (n : Int) : Exponent :=
  ⟨n, 1⟩

def zero : Exponent :=
  ofInt 0

def one : Exponent :=
  ofInt 1

/-- The fraction in lowest terms, its denominator positive. -/
def reduce (n d : Int) : Exponent :=
  let g : Int := Int.gcd n d
  if d < 0 then ⟨-(n / g), -(d / g)⟩ else ⟨n / g, d / g⟩

/-- The fraction in lowest terms, if both of its parts fit. That of two words fits unless a negative
denominator has to change its sign along with the numerator. -/
def reduce? (n d : Int) : Option Exponent := do
  let r := reduce n d
  return ⟨← inWord? r.numerator, ← inWord? r.denominator⟩

def isZero (e : Exponent) : Bool :=
  e.numerator = 0

def isOne (e : Exponent) : Bool :=
  e.numerator = e.denominator

def isInteger (e : Exponent) : Bool :=
  e.denominator = 1

/-- Equality of the fractions, whether or not they are in lowest terms. -/
def sameValue (e f : Exponent) : Bool :=
  e.numerator * f.denominator = f.numerator * e.denominator

/-- Order of the fractions; both denominators are positive. -/
def le (e f : Exponent) : Bool :=
  e.numerator * f.denominator ≤ f.numerator * e.denominator

def max (e f : Exponent) : Exponent :=
  if le e f then f else e

/-- Both fractions over the least common multiple of the denominators, joined by `op`. -/
def overCommon? (op : Int → Int → Int) (e f : Exponent) : Option Exponent := do
  let g : Int := Int.gcd e.denominator f.denominator
  let common ← inWord? (e.denominator / g * f.denominator)
  let left ← inWord? (common / e.denominator * e.numerator)
  let right ← inWord? (common / f.denominator * f.numerator)
  reduce? (← inWord? (op left right)) common

def add? (e f : Exponent) : Option Exponent :=
  overCommon? (· + ·) e f

def sub? (e f : Exponent) : Option Exponent :=
  overCommon? (· - ·) e f

/-- Common factors across the two fractions are divided out before the products are formed. -/
def mul? (e f : Exponent) : Option Exponent := do
  let g : Int := Int.gcd e.numerator f.denominator
  let h : Int := Int.gcd e.denominator f.numerator
  let n ← inWord? (e.numerator / g * (f.numerator / h))
  let d ← inWord? (e.denominator / h * (f.denominator / g))
  reduce? n d

/-- The quotient as an unreduced pair. Equal denominators or numerators cancel first. -/
def quotient? (e f : Exponent) : Option (Int × Int) :=
  if e.denominator = f.denominator then some (e.numerator, f.numerator)
  else if e.numerator = f.numerator then some (f.denominator, e.denominator)
  else do
    let g : Int := Int.gcd e.numerator f.numerator
    let h : Int := Int.gcd e.denominator f.denominator
    let n ← inWord? (e.numerator / g * (f.denominator / h))
    let d ← inWord? (e.denominator / h * (f.numerator / g))
    return (n, d)

def div? (e f : Exponent) : Option Exponent :=
  if f.isZero then none
  else do
    let (n, d) ← quotient? e f
    reduce? n d

def characters (e : Exponent) : List Char :=
  if e.isInteger then Decimal.integer e.numerator
  else Decimal.integer e.numerator ++ '/' :: Decimal.integer e.denominator

end Exponent

end QuantityCalculus
