import QuantityCalculus.Proofs.Equation.Renaming
import QuantityCalculus.Arithmetic.Operator

/-!
The site of an operator is where the blame falls, and is of no account otherwise. The blame names
neither a variable nor a function.
-/
namespace QuantityCalculus.Arithmetic

open Outcome

variable {r : Renaming} {R : Fault → Fault → Prop} {site other : Equation}
  (h : r.Moves R site other)

include h

theorem scalarProduct_parallel (m n : Matrix) :
    (scalarProduct site m n).Parallel R (scalarProduct other m n) := by
  unfold scalarProduct
  exact .ite (expect_parallel _ _) (h.blame (.scalarProductLengths m.rows n.rows))

theorem vectorProduct_parallel (m n : Matrix) :
    (vectorProduct site m n).Parallel R (vectorProduct other m n) := by
  unfold vectorProduct
  exact .ite (expect_parallel _ _) (h.blame (.vectorProductLengths m.rows n.rows))

theorem matrixProduct_parallel (m n : Matrix) :
    (matrixProduct site m n).Parallel R (matrixProduct other m n) := by
  unfold matrixProduct
  exact .ite (expect_parallel _ _) (h.blame (.matrixProductShapes m.shape n.shape))

theorem columnProduct_parallel (rule : VectorRule) (m n : Matrix) :
    (columnProduct site rule m n).Parallel R (columnProduct other rule m n) := by
  cases rule with
  | ambiguous => exact h.blame .ambiguousVectors
  | scalar => exact (scalarProduct_parallel h m n).bind fun _ _ => .value _
  | vector => exact (vectorProduct_parallel h m n).bind fun _ _ => .value _

theorem sum_parallel (p q : Quantity) : (sum site p q).Parallel R (sum other p q) := by
  unfold sum
  split
  · exact .value _
  · exact .value _
  · exact .value _
  · refine .ite ?_ (h.blame (.unlikeShapes _ _))
    exact (expect_parallel _ _).bind fun _ _ => .value _

theorem product_parallel (rule : VectorRule) (p q : Quantity) :
    (product site rule p q).Parallel R (product other rule p q) := by
  unfold product
  split
  · exact .value _
  · exact .value _
  · exact .value _
  · refine .ite (columnProduct_parallel h rule _ _) ?_
    exact (matrixProduct_parallel h _ _).bind fun _ _ => .value _

theorem quotient_parallel (p q : Quantity) :
    (quotient site p q).Parallel R (quotient other p q) := by
  unfold quotient
  split
  · exact h.blame .matrixDivisor
  · exact .ite (h.blame .zeroDivisor) (.value _)
  · exact .ite (h.blame .zeroDivisor) (.value _)
  · exact .ite (h.blame .zeroDivisor) (.value _)

theorem commonUnit_parallel (u v : CompoundUnit) :
    (commonUnit site u v).Parallel R (commonUnit other u v) := by
  unfold commonUnit
  exact .ite (.value u) (h.blame (.unlikeUnits u v))

theorem unitInRange_parallel (u : CompoundUnit) (x : Option CompoundUnit) :
    (unitInRange site u x).Parallel R (unitInRange other u x) := by
  cases x with
  | none => exact h.blame (.exponentRange u)
  | some w => exact .value w

theorem join_parallel (operator : BinaryOperator)
    {units units' : CompoundUnit → CompoundUnit → Outcome CompoundUnit}
    {quantities quantities' : Quantity → Quantity → Outcome (Option Quantity)}
    (hu : ∀ u v, (units u v).Parallel R (units' u v))
    (hq : ∀ p q, (quantities p q).Parallel R (quantities' p q)) (a b : Value) :
    (join operator site units quantities a b).Parallel R
      (join operator other units' quantities' a b) := by
  refine (hu _ _).bind fun u _ => (hq _ _).bind fun q _ => ?_
  cases q with
  | none => exact h.blame (.operandKinds operator _ _)
  | some q => exact .value _

theorem plus_parallel (a b : Value) : (plus site a b).Parallel R (plus other a b) :=
  join_parallel h _ (commonUnit_parallel h) (fun p q => (sum_parallel h p q).map some) a b

theorem multiply_parallel (rule : VectorRule) (a b : Value) :
    (multiply site rule a b).Parallel R (multiply other rule a b) :=
  join_parallel h _ (fun _ _ => unitInRange_parallel h _ _)
    (fun p q => (product_parallel h rule p q).map some) a b

theorem divide_parallel (a b : Value) : (divide site a b).Parallel R (divide other a b) :=
  join_parallel h _ (fun _ _ => unitInRange_parallel h _ _)
    (fun p q => (quotient_parallel h p q).map some) a b

theorem power_parallel (a b : Value) : (power site a b).Parallel R (power other a b) := by
  cases b with
  | number y =>
    exact join_parallel h .power (fun _ _ => unitInRange_parallel h _ _)
      (fun p q => .value (raise? p q)) a (.number y)
  | matrix m => exact h.blame (.exponentKind _)
  | measured u q => exact h.blame (.exponentKind _)

theorem apply_parallel (operator : BinaryOperator) (a b : Value) :
    (apply operator site a b).Parallel R (apply operator other a b) := by
  cases operator with
  | plus => exact plus_parallel h a b
  | minus => exact plus_parallel h a b.negate
  | plusMinus => exact h.blame .plusMinus
  | juxtaposition => exact multiply_parallel h .ambiguous a b
  | dot => exact multiply_parallel h .scalar a b
  | cross => exact multiply_parallel h .vector a b
  | fraction | inlineDivision => exact divide_parallel h a b
  | power => exact power_parallel h a b

end QuantityCalculus.Arithmetic
