import QuantityCalculus.Proofs.Binary64
import QuantityCalculus.Proofs.CompoundUnit.Canonical
import QuantityCalculus.Value.Basic

/-!
Equality of values. Units and numbers are compared apart, and a value fails to be equal to itself
only for a NaN in it.
-/
namespace QuantityCalculus

namespace Matrix

def NaNFree (m : Matrix) : Prop :=
  ∀ row ∈ m.cells, ∀ x ∈ row, x.isNaN = false

instance (m : Matrix) : Decidable m.NaNFree :=
  inferInstanceAs (Decidable (∀ row ∈ m.cells, ∀ x ∈ row, x.isNaN = false))

theorem rowsEqual_self {row : List Float} (h : ∀ x ∈ row, x.isNaN = false) :
    rowsEqual row row = true := by
  induction row with
  | nil => rfl
  | cons x rest ih =>
    obtain ⟨hx, hrest⟩ := List.forall_mem_cons.1 h
    rw [rowsEqual, Binary64.beq_self hx, ih hrest]
    rfl

theorem cellsEqual_self {rows : List (List Float)} (h : ∀ row ∈ rows, ∀ x ∈ row, x.isNaN = false) :
    cellsEqual rows rows = true := by
  induction rows with
  | nil => rfl
  | cons row rest ih =>
    obtain ⟨hrow, hrest⟩ := List.forall_mem_cons.1 h
    rw [cellsEqual, rowsEqual_self hrow, ih hrest]
    rfl

theorem equal_self {m : Matrix} (h : m.NaNFree) : m.equal m = true := by
  rw [equal, cellsEqual_self h, beq_self_eq_true, beq_self_eq_true]
  rfl

end Matrix

namespace Quantity

/-- No number in the quantity is NaN. -/
def NaNFree : Quantity → Prop
  | .number x => x.isNaN = false
  | .matrix m => m.NaNFree

instance (q : Quantity) : Decidable q.NaNFree :=
  match q with
  | .number x => inferInstanceAs (Decidable (x.isNaN = false))
  | .matrix m => inferInstanceAs (Decidable m.NaNFree)

theorem equal_self {q : Quantity} (h : q.NaNFree) : q.equal q = true := by
  cases q with
  | number x => exact Binary64.beq_self h
  | matrix m => exact Matrix.equal_self h

end Quantity

namespace Value

variable {u v : CompoundUnit} {p q : Quantity}

theorem negate_ofParts (u : CompoundUnit) (q : Quantity) :
    (ofParts u q).negate = ofParts u q.negate := by
  unfold ofParts
  split
  · cases q <;> rfl
  · rfl

theorem equal_ofParts (hu : u.sameUnit v = true) (hq : p.equal q = true) :
    (ofParts u p).equal (ofParts v q) = true := by
  unfold ofParts
  rw [← CompoundUnit.isDimensionless_of_sameUnit hu]
  split
  · cases p <;> cases q <;> exact hq
  · exact Bool.and_eq_true_iff.2 ⟨hu, hq⟩

end Value

end QuantityCalculus
