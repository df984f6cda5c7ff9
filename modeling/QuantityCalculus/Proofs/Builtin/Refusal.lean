import QuantityCalculus.Proofs.Builtin.Radical

/-!
Arguments that a function refuses for their values.
-/
namespace QuantityCalculus

/-- The function called `name` has this cause for refusing an argument of the value. -/
def Value.RefusedFor (v : Value) (name : String) : Cause → Prop
  | .numbersOnly n => n = name ∧ v.number? = none
  | .negativeRadicand n | .evenRootOfNegative n => n = name ∧ ∃ x, v.quantity = .number x ∧ x < 0.0
  | .rootIndex n => n = name ∧ ∃ k, v = .number k ∧ Radical.index? k = none
  | .exponentRange units => units = v.units ∧ ∃ index, units.root? index = none
  | _ => False

theorem Value.number?_of_matrix {v : Value} {m : Matrix} (h : v.quantity = .matrix m) :
    v.number? = none := by
  cases v with
  | number x => cases h
  | matrix m => rfl
  | measured units quantity => rfl

namespace Radical

variable {call : Call} {v : Value} {stop : Stop}

/-- A square root refuses its radicand and blames nothing else. -/
theorem refused_of_squareRootOf (h : squareRootOf call v = .error stop) :
    ∃ cause, v.RefusedFor call.name cause ∧
      call.blameArgument 0 cause = (.error stop : Outcome Value) := by
  rcases squareRootOf_eq_error.1 h with ⟨⟨m, hm⟩, h⟩ | ⟨x, hx, ⟨hneg, h⟩ | ⟨-, hn, h⟩⟩
  · exact ⟨.numbersOnly call.name, ⟨rfl, Value.number?_of_matrix hm⟩, h⟩
  · exact ⟨.negativeRadicand call.name, ⟨rfl, x, hx, hneg⟩, h⟩
  · exact ⟨.exponentRange v.units, ⟨rfl, 2, hn⟩, h⟩

/-- A root refuses its index or its radicand. -/
theorem refused_of_rootOf {k : Float} (h : rootOf call k v = .error stop) :
    ∃ cause, (Value.number k).RefusedFor call.name cause ∧
        call.blameArgument 0 cause = (.error stop : Outcome Value) ∨
      v.RefusedFor call.name cause ∧
        call.blameArgument 1 cause = (.error stop : Outcome Value) := by
  rcases rootOf_eq_error.1 h with
    ⟨⟨m, hm⟩, h⟩ | ⟨x, hx, ⟨hk, h⟩ | ⟨n, -, ⟨-, hneg, h⟩ | ⟨-, hn, h⟩⟩⟩
  · exact ⟨.numbersOnly call.name, .inr ⟨⟨rfl, Value.number?_of_matrix hm⟩, h⟩⟩
  · exact ⟨.rootIndex call.name, .inl ⟨⟨rfl, k, rfl, hk⟩, h⟩⟩
  · exact ⟨.evenRootOfNegative call.name, .inr ⟨⟨rfl, x, hx, hneg⟩, h⟩⟩
  · exact ⟨.exponentRange v.units, .inr ⟨⟨rfl, n, hn⟩, h⟩⟩

end Radical

end QuantityCalculus
