import QuantityCalculus.Proofs.Arithmetic.Operator
import QuantityCalculus.Proofs.Arithmetic.Units

/-!
Properties of values that the steps of an evaluation keep: operators, roots and matrix literals.
-/
namespace QuantityCalculus.Value

/-- The values that a step of an evaluation makes of values with the property have it as well. -/
structure Closed (good : Value → Prop) : Prop where
  number (x : Float) : good (.number x)
  negate {v : Value} (hv : good v) : good v.negate
  apply {operator : BinaryOperator} {site : Equation} {a b v : Value} (ha : good a) (hb : good b)
    (h : Arithmetic.apply operator site a b = .ok v) : good v
  root {v : Value} {w : CompoundUnit} {index : Nat} (hv : good v)
    (h : v.units.root? index = some w) (x : Float) : good (.ofParts w (.number x))
  matrix {v : Value} {m : Matrix} (hv : good v) (hm : m.WellFormed) :
    good (.ofParts v.units (.matrix m))

theorem closed_true : Closed fun _ => True := by
  constructor <;> intros <;> trivial

theorem Closed.and {good fine : Value → Prop} (h : Closed good) (h' : Closed fine) :
    Closed fun v => good v ∧ fine v where
  number x := ⟨h.number x, h'.number x⟩
  negate hv := ⟨h.negate hv.1, h'.negate hv.2⟩
  apply ha hb hv := ⟨h.apply ha.1 hb.1 hv, h'.apply ha.2 hb.2 hv⟩
  root hv hw x := ⟨h.root hv.1 hw x, h'.root hv.2 hw x⟩
  matrix hv hm := ⟨h.matrix hv.1 hm, h'.matrix hv.2 hm⟩

theorem closed_wellFormed : Closed WellFormed where
  number _ := trivial
  negate hv := hv.negate
  apply ha hb h := Arithmetic.wellFormed_of_apply ha hb h
  root _ h _ := wellFormed_ofParts (CompoundUnit.zeroFree_of_map? h) trivial
  matrix hv hm := wellFormed_ofParts hv.units hm

theorem closed_units {P : CompoundUnit → Prop} (hP : CompoundUnit.Closed P) :
    Closed fun v => P v.units where
  number _ := hP.dimensionless
  negate {v} hv := v.units_negate.symm ▸ hv
  apply ha hb h := Arithmetic.closed_apply hP ha hb h
  root hv h _ := (units_ofParts _ _).symm ▸ hP.root hv h
  matrix hv _ := (units_ofParts _ _).symm ▸ hv

end QuantityCalculus.Value
