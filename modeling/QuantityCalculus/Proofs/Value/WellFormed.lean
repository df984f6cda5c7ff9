import QuantityCalculus.Value.Basic
import QuantityCalculus.Proofs.CompoundUnit.ZeroFree
import QuantityCalculus.Proofs.Matrix

/-!
Well-formed values: the cells of every matrix agree with its sizes, and the unit of a measured
value has entries, none of them with exponent zero.
-/
namespace QuantityCalculus

namespace Quantity

def WellFormed : Quantity → Prop
  | .number _ => True
  | .matrix m => m.WellFormed

instance (q : Quantity) : Decidable q.WellFormed :=
  match q with
  | .number _ => inferInstanceAs (Decidable True)
  | .matrix m => inferInstanceAs (Decidable m.WellFormed)

theorem WellFormed.negate {q : Quantity} (h : q.WellFormed) : q.negate.WellFormed := by
  cases q with
  | number x => trivial
  | matrix m => exact Matrix.WellFormed.map h _

end Quantity

namespace Value

def WellFormed : Value → Prop
  | .number _ => True
  | .matrix m => m.WellFormed
  | .measured units quantity => units.entries ≠ [] ∧ units.ZeroFree ∧ quantity.WellFormed

instance (v : Value) : Decidable v.WellFormed :=
  match v with
  | .number _ => inferInstanceAs (Decidable True)
  | .matrix m => inferInstanceAs (Decidable m.WellFormed)
  | .measured _ _ => inferInstanceAs (Decidable (_ ∧ _ ∧ _))

variable {v : Value}

theorem WellFormed.units (h : v.WellFormed) : v.units.ZeroFree := by
  cases v with
  | number x => exact CompoundUnit.zeroFree_dimensionless
  | matrix m => exact CompoundUnit.zeroFree_dimensionless
  | measured units quantity => exact h.2.1

theorem WellFormed.quantity (h : v.WellFormed) : v.quantity.WellFormed := by
  cases v with
  | number x => trivial
  | matrix m => exact h
  | measured units quantity => exact h.2.2

theorem wellFormed_bare {q : Quantity} (h : q.WellFormed) : q.bare.WellFormed := by
  cases q with
  | number x => trivial
  | matrix m => exact h

/-- A unit whose entries have all cancelled is left off. -/
theorem wellFormed_ofParts {units : CompoundUnit} {quantity : Quantity} (hu : units.ZeroFree)
    (hq : quantity.WellFormed) : (ofParts units quantity).WellFormed := by
  unfold ofParts
  split
  · exact wellFormed_bare hq
  · rename_i hd
    refine ⟨?_, hu, hq⟩
    intro he
    exact hd (by rw [CompoundUnit.isDimensionless, he]; rfl)

/-- Only the dimensionless unit is left off. -/
theorem WellFormed.bare_iff (h : v.WellFormed) {x : Float} (hq : v.quantity = .number x) :
    (∃ y, v = .number y) ↔ v.units.isDimensionless = true := by
  cases v with
  | number y => exact iff_of_true ⟨y, rfl⟩ rfl
  | matrix m => cases hq
  | measured units quantity =>
    refine iff_of_false ?_ ?_
    · rintro ⟨y, hy⟩
      cases hy
    · intro he
      exact h.1 (List.isEmpty_iff.1 he)

theorem WellFormed.negate (h : v.WellFormed) : v.negate.WellFormed := by
  cases v with
  | number x => trivial
  | matrix m => exact Matrix.WellFormed.map h _
  | measured units quantity => exact ⟨h.1, h.2.1, h.2.2.negate⟩

end Value

end QuantityCalculus
