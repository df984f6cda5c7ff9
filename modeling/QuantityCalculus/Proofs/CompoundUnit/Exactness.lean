import QuantityCalculus.Proofs.CompoundUnit.Closure

/-!
Operations on units are pointwise and exact. A combination of two units holds, at each symbol that
one of them stores, what the operation makes of their exponents there. The exponents of products,
quotients, powers and roots are the exact rational numbers, and integers are refused for nothing
but a sum or a difference that leaves the range.
-/
namespace QuantityCalculus.CompoundUnit

variable {u v w : CompoundUnit}

/-- Every exponent is an integer of the range. -/
def IntegerPowers (u : CompoundUnit) : Prop :=
  ∀ entry ∈ u.entries, entry.2.isInteger = true ∧ InWord entry.2.numerator

instance (u : CompoundUnit) : Decidable u.IntegerPowers :=
  inferInstanceAs (Decidable (∀ entry ∈ u.entries, _ ∧ _))

theorem IntegerPowers.exponent (h : u.IntegerPowers) (symbol : String) :
    ∃ n, InWord n ∧ u.exponent symbol = .ofInt n := by
  unfold CompoundUnit.exponent
  cases hl : u.entries.lookup symbol with
  | none => exact ⟨0, by decide, rfl⟩
  | some e =>
    obtain ⟨hinteger, hword⟩ := h _ (mem_of_lookup hl)
    have hdenominator : e.denominator = 1 := of_decide_eq_true hinteger
    refine ⟨e.numerator, hword, ?_⟩
    cases e
    subst hdenominator
    rfl

/-- The least integer over minus one is no exponent in lowest terms, and is not taken over. -/
example : multiply? ⟨[("m", ⟨-9223372036854775808, -1⟩)]⟩ dimensionless = none := by
  decide

end QuantityCalculus.CompoundUnit
