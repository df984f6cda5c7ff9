import QuantityCalculus.Equation.Basic
import QuantityCalculus.Value.Basic

/-!
Faults of equations: what is wrong, and the part of the equation that is to blame.
-/
namespace QuantityCalculus

/-- How many arguments a function takes. -/
structure Arity where
  least : Nat
  most : Option Nat
  deriving DecidableEq, Repr

def Arity.exactly (n : Nat) : Arity :=
  ⟨n, some n⟩

def Arity.admits (a : Arity) (n : Nat) : Bool :=
  a.least ≤ n && a.most.all fun most => n ≤ most

/-- What is wrong. A `name` is the name under which a function or variable was used. -/
inductive Cause where
  | unknownFunction (name : String)
  | argumentCount (name : String) (arity : Arity) (found : Nat)
  | numbersOnly (name : String)
  | negativeRadicand (name : String)
  | rootIndex (name : String)
  | evenRootOfNegative (name : String)
  | seriesVariable (name : String) (found : String)
  | seriesStart (name : String)
  | seriesEnd (name : String)
  | unknownVariable (name : String)
  | unlikeUnits (left right : CompoundUnit)
  | unlikeShapes (left right : Shape)
  | plusMinus
  | scalarProductLengths (left right : Nat)
  | vectorProductLengths (left right : Nat)
  | matrixProductShapes (left right : Shape)
  | ambiguousVectors
  | zeroDivisor
  | matrixDivisor
  | exponentKind (found : Kind)
  | exponentRange (units : CompoundUnit)
  | operandKinds (operator : BinaryOperator) (left right : Kind)
  | comparison (relation : Relation)
  | cellUnits (expected found : CompoundUnit)
  | nestedMatrix
  | malformedMatrix
  | incomplete
  | unreadable (token : Unreadable)
  | depth (limit : Nat)
  deriving DecidableEq, Repr

structure Fault where
  cause : Cause
  site : Equation
  deriving Repr

/-- A step that the checks before it rule out. -/
inductive Defect where
  | missingArgument
  | missingCell
  | shapeMismatch
  | emptySeries
  | zeroIndex
  deriving DecidableEq, Repr

/-- Why an evaluation ends without a value. -/
inductive Stop where
  | fault (fault : Fault)
  | defect (defect : Defect)
  deriving Repr

abbrev Outcome (α : Type) : Type :=
  Except Stop α

namespace Outcome

def blame {α : Type} (site : Equation) (cause : Cause) : Outcome α :=
  .error (.fault ⟨cause, site⟩)

/-- The value of a step that cannot fail after the checks before it. -/
def expect {α : Type} (defect : Defect) : Option α → Outcome α
  | some a => .ok a
  | none => .error (.defect defect)

end Outcome

end QuantityCalculus
