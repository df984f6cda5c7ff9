import QuantityCalculus.Proofs.CompoundUnit.Closure
import QuantityCalculus.Proofs.Arithmetic.Grounds
import QuantityCalculus.Proofs.Outcome

/-!
The units of the results of the operators. They are formed from the units of the operands by the
operations on units, whatever the quantities are.
-/
namespace QuantityCalculus.Arithmetic

variable {site : Equation} {a b v : Value} {P : CompoundUnit → Prop}

theorem join_eq_ok {operator : BinaryOperator}
    {units : CompoundUnit → CompoundUnit → Outcome CompoundUnit}
    {quantities : Quantity → Quantity → Outcome (Option Quantity)} :
    join operator site units quantities a b = .ok v ↔ ∃ u q, units a.units b.units = .ok u ∧
      quantities a.quantity b.quantity = .ok (some q) ∧ v = .ofParts u q := by
  rw [join, Outcome.bind_eq_ok]
  constructor
  · rintro ⟨u, hu, h⟩
    obtain ⟨result, hq, h⟩ := Outcome.bind_eq_ok.1 h
    cases result with
    | none => exact absurd h Outcome.blame_ne_ok
    | some q => exact ⟨u, q, hu, hq, (Outcome.pure_eq_ok.1 h).symm⟩
  · rintro ⟨u, q, hu, hq, rfl⟩
    exact ⟨u, hu, Outcome.bind_eq_ok.2 ⟨some q, hq, rfl⟩⟩

theorem units_of_join {operator : BinaryOperator}
    {units : CompoundUnit → CompoundUnit → Outcome CompoundUnit}
    {quantities : Quantity → Quantity → Outcome (Option Quantity)}
    (h : join operator site units quantities a b = .ok v) :
    units a.units b.units = .ok v.units := by
  obtain ⟨u, q, hu, -, rfl⟩ := join_eq_ok.1 h
  rw [Value.units_ofParts]
  exact hu

theorem commonUnit_eq_ok {u v w : CompoundUnit} :
    commonUnit site u v = .ok w ↔ u.sameUnit v = true ∧ w = u := by
  unfold commonUnit
  split
  · rename_i h
    simp [h, eq_comm]
  · rename_i h
    simp [h]

theorem unitInRange_eq_ok {u w : CompoundUnit} {x : Option CompoundUnit} :
    unitInRange site u x = .ok w ↔ x = some w := by
  cases x <;> simp [unitInRange]

theorem units_of_plus (h : plus site a b = .ok v) : v.units = a.units :=
  (commonUnit_eq_ok.1 (units_of_join h)).2

theorem units_of_multiply {rule : VectorRule} (h : multiply site rule a b = .ok v) :
    a.units.multiply? b.units = some v.units :=
  unitInRange_eq_ok.1 (units_of_join h)

theorem units_of_divide (h : divide site a b = .ok v) : a.units.divide? b.units = some v.units :=
  unitInRange_eq_ok.1 (units_of_join h)

theorem units_of_power (h : power site a b = .ok v) :
    ∃ y, b = .number y ∧ a.units.power? y = some v.units := by
  unfold power at h
  cases b with
  | number y => exact ⟨y, rfl, unitInRange_eq_ok.1 (units_of_join h)⟩
  | matrix m => exact absurd h Outcome.blame_ne_ok
  | measured u q => exact absurd h Outcome.blame_ne_ok

theorem closed_apply (hP : CompoundUnit.Closed P) {operator : BinaryOperator} (ha : P a.units)
    (hb : P b.units) (h : apply operator site a b = .ok v) : P v.units := by
  cases operator with
  | plus => exact units_of_plus h ▸ ha
  | minus => exact units_of_plus h ▸ ha
  | plusMinus => exact absurd h Outcome.blame_ne_ok
  | juxtaposition | dot | cross => exact hP.multiply ha hb (units_of_multiply h)
  | fraction | inlineDivision => exact hP.divide ha hb (units_of_divide h)
  | power =>
    obtain ⟨y, -, hu⟩ := units_of_power h
    exact hP.power ha hu

end QuantityCalculus.Arithmetic
