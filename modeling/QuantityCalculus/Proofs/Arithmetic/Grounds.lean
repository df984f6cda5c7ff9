import QuantityCalculus.Arithmetic.Operator

/-!
The grounds on which an operator refuses its operands. A cause gives the units or the sizes of the
operands, in their order, and these break the rule that the cause is named for.
-/
namespace QuantityCalculus

def Quantity.shape? : Quantity → Option Shape
  | .number _ => none
  | .matrix m => some m.shape

/-- There is a zero to divide by. -/
def Quantity.hasZero : Quantity → Bool
  | .number x => x == 0.0
  | .matrix m => m.containsZero

namespace BinaryOperator

def IsSum (operator : BinaryOperator) : Prop :=
  operator = .plus ∨ operator = .minus

def IsProduct (operator : BinaryOperator) : Prop :=
  operator = .juxtaposition ∨ operator = .dot ∨ operator = .cross

def IsQuotient (operator : BinaryOperator) : Prop :=
  operator = .fraction ∨ operator = .inlineDivision

end BinaryOperator

namespace Arithmetic

/-- The operator has no unit for its result in the range of exponents. -/
def OutOfRange (operator : BinaryOperator) (a b : Value) : Prop :=
  operator.IsProduct ∧ a.units.multiply? b.units = none ∨
    operator.IsQuotient ∧ a.units.divide? b.units = none ∨
    operator = .power ∧ ∃ y, b = .number y ∧ a.units.power? y = none

/-- What the cause says is so of the operator and its operands. -/
def Grounds (operator : BinaryOperator) (a b : Value) : Cause → Prop
  | .unlikeUnits u v => operator.IsSum ∧ u = a.units ∧ v = b.units ∧ u.sameUnit v = false
  | .unlikeShapes p q =>
    operator.IsSum ∧ a.quantity.shape? = some p ∧ b.quantity.shape? = some q ∧ p ≠ q
  | .plusMinus => operator = .plusMinus
  | .scalarProductLengths i j =>
    operator = .dot ∧ a.quantity.shape? = some ⟨i, 1⟩ ∧ b.quantity.shape? = some ⟨j, 1⟩ ∧ i ≠ j
  | .vectorProductLengths i j =>
    operator = .cross ∧ a.quantity.shape? = some ⟨i, 1⟩ ∧ b.quantity.shape? = some ⟨j, 1⟩ ∧
      ¬ (i = 3 ∧ j = 3)
  | .matrixProductShapes p q =>
    operator.IsProduct ∧ a.quantity.shape? = some p ∧ b.quantity.shape? = some q ∧
      p.cols ≠ q.rows ∧ ¬ (p.cols = 1 ∧ q.cols = 1)
  | .ambiguousVectors =>
    operator = .juxtaposition ∧ ∃ i j, a.quantity.shape? = some ⟨i, 1⟩ ∧
      b.quantity.shape? = some ⟨j, 1⟩
  | .zeroDivisor => operator.IsQuotient ∧ b.quantity.hasZero = true
  | .matrixDivisor =>
    operator.IsQuotient ∧ a.quantity.kind = .matrix ∧ b.quantity.kind = .matrix
  | .exponentKind found => operator = .power ∧ found = b.kind ∧ found ≠ .number
  | .exponentRange u => u = a.units ∧ OutOfRange operator a b
  | _ => False

theorem Grounds.ne_operandKinds {operator : BinaryOperator} {a b : Value} {cause : Cause}
    (h : Grounds operator a b cause) (other : BinaryOperator) (left right : Kind) :
    cause ≠ .operandKinds other left right := by
  rintro rfl
  exact h

/-- An addition is refused for the units or for the sizes only. -/
theorem Grounds.of_plus {a b : Value} {cause : Cause} (h : Grounds .plus a b cause) :
    (∃ u v, cause = .unlikeUnits u v) ∨ ∃ p q, cause = .unlikeShapes p q := by
  cases cause with
  | unlikeUnits u v => exact .inl ⟨u, v, rfl⟩
  | unlikeShapes p q => exact .inr ⟨p, q, rfl⟩
  | _ => simp [Grounds, OutOfRange, BinaryOperator.IsProduct, BinaryOperator.IsQuotient] at h

theorem VectorRule.isProduct (rule : VectorRule) : rule.operator.IsProduct := by
  cases rule with
  | ambiguous => exact .inl rfl
  | scalar => exact .inr (.inl rfl)
  | vector => exact .inr (.inr rfl)

end Arithmetic

namespace Value

@[simp] theorem units_negate (v : Value) : v.negate.units = v.units := by
  cases v <;> rfl

theorem quantity_negate (v : Value) : v.negate.quantity = v.quantity.negate := by
  cases v <;> rfl

@[simp] theorem shape?_negate (v : Value) : v.negate.quantity.shape? = v.quantity.shape? := by
  cases v with
  | number x => rfl
  | matrix m => rfl
  | measured units quantity => cases quantity <;> rfl

end Value

end QuantityCalculus
