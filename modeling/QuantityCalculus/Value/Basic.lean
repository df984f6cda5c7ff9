import QuantityCalculus.CompoundUnit.Algebra
import QuantityCalculus.Matrix

/-!
Values of equations: numbers and matrices, either of them bare or measured in a unit.
-/
namespace QuantityCalculus

/-- The part of a value beside its unit. -/
inductive Quantity where
  | number (x : Float)
  | matrix (m : Matrix)
  deriving DecidableEq, Repr

inductive Value where
  | number (x : Float)
  | matrix (m : Matrix)
  | measured (units : CompoundUnit) (quantity : Quantity)
  deriving DecidableEq, Repr

inductive Kind where
  | number
  | matrix
  | unit
  deriving DecidableEq, Repr

namespace Quantity

def kind : Quantity → Kind
  | .number _ => .number
  | .matrix _ => .matrix

def negate : Quantity → Quantity
  | .number x => .number (-x)
  | .matrix m => .matrix (m.map fun x => -x)

def bare : Quantity → Value
  | .number x => .number x
  | .matrix m => .matrix m

def equal : Quantity → Quantity → Bool
  | .number x, .number y => x == y
  | .matrix m, .matrix n => m.equal n
  | _, _ => false

end Quantity

namespace Value

/-- A quantity in the dimensionless unit is bare. -/
def ofParts (units : CompoundUnit) (quantity : Quantity) : Value :=
  if units.isDimensionless then quantity.bare else .measured units quantity

def units : Value → CompoundUnit
  | .measured units _ => units
  | _ => .dimensionless

def quantity : Value → Quantity
  | .number x => .number x
  | .matrix m => .matrix m
  | .measured _ quantity => quantity

def kind : Value → Kind
  | .number _ => .number
  | .matrix _ => .matrix
  | .measured _ _ => .unit

def negate : Value → Value
  | .number x => .number (-x)
  | .matrix m => .matrix (m.map fun x => -x)
  | .measured units quantity => .measured units quantity.negate

def number? : Value → Option Float
  | .number x => some x
  | _ => none

@[simp] theorem units_ofParts (units : CompoundUnit) (quantity : Quantity) :
    (ofParts units quantity).units = units := by
  obtain ⟨entries⟩ := units
  cases entries <;> cases quantity <;> rfl

@[simp] theorem quantity_ofParts (units : CompoundUnit) (quantity : Quantity) :
    (ofParts units quantity).quantity = quantity := by
  obtain ⟨entries⟩ := units
  cases entries <;> cases quantity <;> rfl

/-- The integer held by a bare number. -/
def integer? (v : Value) : Option Int := do
  Binary64.integer? (← v.number?)

def equal : Value → Value → Bool
  | .number x, .number y => x == y
  | .matrix m, .matrix n => m.equal n
  | .measured u p, .measured v q => u.sameUnit v && p.equal q
  | _, _ => false

end Value

end QuantityCalculus
