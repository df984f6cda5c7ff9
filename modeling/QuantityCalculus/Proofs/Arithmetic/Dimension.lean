import QuantityCalculus.Proofs.Arithmetic.Operator
import QuantityCalculus.Proofs.CompoundUnit.Canonical

/-!
What an operator makes of units and sizes does not depend on the numbers. Two evaluations whose
operands differ in their numbers only are related step by step, up to a division by zero.
-/
namespace QuantityCalculus

/-- Two numbers, or two matrices of one shape. -/
inductive Quantity.SameShape : Quantity → Quantity → Prop where
  | number {x y : Float} : SameShape (.number x) (.number y)
  | matrix {m n : Matrix} (h : m.shape = n.shape) : SameShape (.matrix m) (.matrix n)

/-- The values differ in their numbers only, and the same fractions are stored in their units. That
the units compare equal would not be enough: what does not fit in a word depends on the fractions. -/
structure Value.SameDimension (v w : Value) : Prop where
  units : v.units = w.units
  quantity : v.quantity.SameShape w.quantity

/-- Well-formed values whose units compare equal and whose shapes are the same. The units are in
lowest terms, unless the same fractions are stored in them. -/
structure Value.SameButNumbers (v w : Value) : Prop where
  left : v.WellFormed
  right : w.WellFormed
  units : v.units.sameUnit w.units = true
  reduced : v.units.Reduced ∧ w.units.Reduced ∨ v.units = w.units
  quantity : v.quantity.SameShape w.quantity

/-- Both outcomes are values that are related, or both are the same fault, unless one of them is a
division by zero. -/
inductive Outcome.Matches {α β : Type} (R : α → β → Prop) : Outcome α → Outcome β → Prop where
  | zeroLeft {site : Equation} {y : Outcome β} :
      Matches R (.error (.fault ⟨.zeroDivisor, site⟩)) y
  | zeroRight {x : Outcome α} {site : Equation} :
      Matches R x (.error (.fault ⟨.zeroDivisor, site⟩))
  | value {a : α} {b : β} (h : R a b) : Matches R (.ok a) (.ok b)
  | fault (f : Fault) : Matches R (.error (.fault f)) (.error (.fault f))

namespace Outcome

variable {α β γ δ : Type} {R : α → β → Prop} {S : γ → δ → Prop} {site : Equation}

theorem Matches.bind {x : Outcome α} {y : Outcome β} {f : α → Outcome γ} {g : β → Outcome δ}
    (h : x.Matches R y) (hf : ∀ a b, x = .ok a → y = .ok b → R a b → (f a).Matches S (g b)) :
    (x >>= f).Matches S (y >>= g) := by
  cases h with
  | zeroLeft => exact .zeroLeft
  | zeroRight => exact .zeroRight
  | value h => exact hf _ _ rfl rfl h
  | fault f => exact .fault f

theorem Matches.map {x : Outcome α} {y : Outcome β} {f : α → γ} {g : β → δ} (h : x.Matches R y)
    (hf : ∀ a b, R a b → S (f a) (g b)) : (f <$> x).Matches S (g <$> y) := by
  cases h with
  | zeroLeft => exact .zeroLeft
  | zeroRight => exact .zeroRight
  | value h => exact .value (hf _ _ h)
  | fault f => exact .fault f

theorem Ends.exists_ok {P : α → Prop} {x : Outcome α}
    (h : x.Ends (fun a => True → P a) (Stop.IsFrom site (fun _ => False) True)) :
    ∃ a, x = .ok a := by
  cases x with
  | ok a => exact ⟨a, rfl⟩
  | error stop =>
    cases stop with
    | fault f => exact (h.2 _ rfl).2.elim
    | defect d => exact absurd trivial (h.2 _ rfl)

end Outcome

theorem Quantity.SameShape.refl (p : Quantity) : p.SameShape p := by
  cases p with
  | number x => exact .number
  | matrix m => exact .matrix rfl

theorem Quantity.SameShape.negate {p q : Quantity} (h : p.SameShape q) :
    p.negate.SameShape q.negate := by
  cases h with
  | number => exact .number
  | matrix hs => exact .matrix hs

theorem Value.SameDimension.refl (v : Value) : v.SameDimension v :=
  ⟨rfl, .refl _⟩

theorem Value.SameButNumbers.refl {v : Value} (hv : v.WellFormed) : v.SameButNumbers v :=
  ⟨hv, hv, CompoundUnit.sameUnit_self v.units, .inr rfl, .refl _⟩

theorem Value.SameDimension.negate {v w : Value} (h : v.SameDimension w) :
    v.negate.SameDimension w.negate := by
  constructor
  · rw [units_negate, units_negate, h.units]
  · rw [quantity_negate, quantity_negate]
    exact h.quantity.negate

namespace Arithmetic

variable {site : Equation} {p q r t : Quantity} {m n m' n' : Matrix} {a b c d : Value}

section Products

variable (hm : m.WellFormed) (hn : n.WellFormed) (hm' : m'.WellFormed) (hn' : n'.WellFormed)
  (hs : m.shape = m'.shape) (ht : n.shape = n'.shape)

include hm hn hm' hn' hs ht

end Products

section Operators

variable (hac : a.SameDimension c) (hbd : b.SameDimension d)

include hac

include hbd

variable (ha : a.WellFormed) (hb : b.WellFormed) (hc : c.WellFormed) (hd : d.WellFormed)

include ha hb hc hd

end Operators

end Arithmetic

end QuantityCalculus
