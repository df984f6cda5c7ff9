import QuantityCalculus.Builtin.Catalogue
import Mathlib.Data.List.Basic

/-!
The arities of the built-in functions against the arguments that their rules look at.
-/
namespace QuantityCalculus

@[simp] theorem Arity.admits_exactly {n found : Nat} :
    (Arity.exactly n).admits found = true ↔ found = n := by
  rw [Arity.admits, Bool.and_eq_true, decide_eq_true_iff]
  simp only [Arity.exactly, Option.all_some, decide_eq_true_eq]
  omega

namespace Builtin

/-- Three functions have rules of their own. Each of the others is a function of bare numbers that
has a value on every list of a length that its arity admits. -/
theorem rule_cases (b : Builtin) :
    (∃ apply, b.rule = .numeric apply ∧
      ∀ xs : List Float, b.arity.admits xs.length = true → ∃ x, apply xs = some x) ∨
    b = .sqrt ∨ b = .root ∨ b = .sum := by
  cases b with
  | sqrt | root | sum => simp
  | max | min => exact .inl ⟨_, rfl, fun xs _ => ⟨_, rfl⟩⟩
  | _ =>
    refine .inl ⟨_, rfl, fun xs h => ?_⟩
    rcases xs with _ | ⟨x, _ | ⟨y, rest⟩⟩
    · simp [arity, Arity.admits, Arity.exactly] at h
    · first | exact ⟨_, rfl⟩ | simp [arity, Arity.admits, Arity.exactly] at h
    · exact ⟨_, rfl⟩

end Builtin

end QuantityCalculus
