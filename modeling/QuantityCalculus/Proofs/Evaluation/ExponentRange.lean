import QuantityCalculus.Proofs.CompoundUnit.Refusal
import QuantityCalculus.Proofs.Evaluation.Invariance
import QuantityCalculus.Proofs.Evaluation.Stops

/-!
Units whose exponents leave their range. The fault gives the unit of the left operand or of the
radicand, and this unit has the symbol that is refused. The exception is a quotient that would have
to negate the least exponent of a symbol that the dividend lacks.
-/
namespace QuantityCalculus

namespace Arithmetic

variable {operator : BinaryOperator} {site p : Equation} {a b : Value} {u : CompoundUnit}
  {symbol : String}

/-- The operator is given up at the symbol, for which the unit of its result has no exponent. -/
def RefusedAt (operator : BinaryOperator) (a b : Value) (symbol : String) : Prop :=
  operator.IsProduct ∧ a.units.combined b.units Exponent.add? = .error symbol ∨
    operator.IsQuotient ∧ a.units.combined b.units Exponent.sub? = .error symbol ∨
    operator = .power ∧ symbol ∈ a.units.symbols ∧ ∃ y, b = .number y ∧
      (do (a.units.exponent symbol).mul? (← Exponent.ofFloat? y)) = none

/-- Among the symbols of the left operand is the one that the operator is given up at, unless it
divides by a unit with an exponent that cannot be negated. -/
def Overflows (operator : BinaryOperator) (a b : Value) : Prop :=
  ∃ symbol, RefusedAt operator a b symbol ∧ (symbol ∈ a.units.symbols ∨
    operator.IsQuotient ∧ a.units.Unnegatable b.units symbol)

theorem OutOfRange.refusedAt (h : OutOfRange operator a b) :
    ∃ symbol, RefusedAt operator a b symbol := by
  rcases h with ⟨ho, hn⟩ | ⟨ho, hn⟩ | ⟨ho, y, hy, hn⟩
  · obtain ⟨symbol, hs⟩ := CompoundUnit.combine?_eq_none_iff_combined.1 hn
    exact ⟨symbol, .inl ⟨ho, hs⟩⟩
  · obtain ⟨symbol, hs⟩ := CompoundUnit.combine?_eq_none_iff_combined.1 hn
    exact ⟨symbol, .inr (.inl ⟨ho, hs⟩)⟩
  · obtain ⟨symbol, hm, hs⟩ := CompoundUnit.exists_of_power?_eq_none hn
    exact ⟨symbol, .inr (.inr ⟨ho, hm, y, hy, hs⟩)⟩

/-- A symbol that the left operand lacks is refused for its exponent in the right one alone. -/
theorem RefusedAt.mem_or_unnegatable (h : RefusedAt operator a b symbol) (hb : b.units.Proper)
    (hrange : b.units.InRange) (hr : Representable (b.units.degree symbol)) :
    symbol ∈ a.units.symbols ∨ operator.IsQuotient ∧ a.units.Unnegatable b.units symbol := by
  rcases h with ⟨-, hs⟩ | ⟨ho, hs⟩ | ⟨-, hm, -⟩
  · exact .inl (CompoundUnit.mem_symbols_of_combined_add? hb hrange hr hs)
  · exact (CompoundUnit.mem_symbols_of_combined_sub? hb hrange hr hs).imp_right
      fun hleast => ⟨ho, hleast⟩
  · exact .inl hm

theorem refusedAt_of_apply
    (h : apply operator site a b = .error (.fault ⟨.exponentRange u, p⟩)) :
    p = site ∧ u = a.units ∧ ∃ symbol, RefusedAt operator a b symbol := by
  obtain ⟨hu, hout⟩ := grounds_of_apply h
  exact ⟨site_of_apply h, hu, hout.refusedAt⟩

theorem overflows_of_apply (hb : b.units.Sound)
    (h : apply operator site a b = .error (.fault ⟨.exponentRange u, p⟩)) :
    p = site ∧ u = a.units ∧ Overflows operator a b := by
  obtain ⟨hp, hu, symbol, hrefused⟩ := refusedAt_of_apply h
  exact ⟨hp, hu, symbol, hrefused,
    hrefused.mem_or_unnegatable hb.canonical.proper hb.inRange (hb.representable symbol)⟩

theorem plus_ne_exponentRange :
    plus site a b ≠ .error (.fault ⟨.exponentRange u, p⟩) := by
  intro h
  have hg : Grounds .plus a b (.exponentRange u) :=
    grounds_of_apply (show apply .plus site a b = _ from h)
  rcases hg.of_plus with ⟨_, _, hcause⟩ | ⟨_, _, hcause⟩
  · cases hcause
  · cases hcause

end Arithmetic

/-- The check of its arguments never objects to a unit. -/
def NumericFunction.IgnoresUnits (g : NumericFunction) : Prop :=
  ∀ name xs violation, g.check name xs = some violation → ∀ u, violation.cause ≠ .exponentRange u

namespace Scope

/-- A node is given up for the exponents of the unit that is reported at the site: an operator for
those of its left operand, a root for those of its radicand. -/
inductive Overflows (s : Scope) : Equation → Equation → CompoundUnit → Prop where
  | operator {operator : BinaryOperator} {left right : Equation} {a b : Value}
      (ha : s.deeper.evaluate left = .ok a) (hb : s.deeper.evaluate right = .ok b)
      (h : Arithmetic.Overflows operator a b) :
      Overflows s (.binary operator left right) (.binary operator left right) a.units
  | squareRoot {name symbol : String} {radicand : Equation} {v : Value}
      (hf : s.function? name = some (.builtin .sqrt)) (hv : s.deeper.evaluate radicand = .ok v)
      (hm : symbol ∈ v.units.symbols) (h : (v.units.exponent symbol).div? (.ofInt 2) = none) :
      Overflows s (.call name [radicand]) radicand v.units
  | root {name symbol : String} {index radicand : Equation} {k : Float} {n : Nat} {v : Value}
      (hf : s.function? name = some (.builtin .root))
      (hk : s.deeper.evaluate index = .ok (.number k)) (hn : Radical.index? k = some n)
      (hv : s.deeper.evaluate radicand = .ok v) (hm : symbol ∈ v.units.symbols)
      (h : (v.units.exponent symbol).div? (.ofInt n) = none) :
      Overflows s (.call name [index, radicand]) radicand v.units

variable {s t : Scope} {e p : Equation} {u : CompoundUnit} {name : String}
  {arguments : List Equation}

theorem overflows_of_squareRootOf {radicand : Equation} {v : Value}
    (hf : s.function? name = some (.builtin .sqrt)) (hv : s.deeper.evaluate radicand = .ok v)
    (h : Radical.squareRootOf (s.deeper.callOf name [radicand]) v =
      .error (.fault ⟨.exponentRange u, p⟩)) : s.Overflows (.call name [radicand]) p u := by
  simp only [Radical.squareRootOf_eq_error, blameArgument_callOf, Outcome.blame_eq_error] at h
  rcases h with ⟨-, hc⟩ | ⟨x, -, ⟨-, hc⟩ | ⟨-, hn, hc⟩⟩
  · cases hc
  · cases hc
  · obtain ⟨symbol, hm, hdiv⟩ := CompoundUnit.map?_eq_none_iff.1 hn
    cases hc
    exact .squareRoot hf hv hm hdiv

theorem overflows_of_rootOf {index radicand : Equation} {k : Float} {v : Value}
    (hf : s.function? name = some (.builtin .root))
    (hk : s.deeper.evaluate index = .ok (.number k)) (hv : s.deeper.evaluate radicand = .ok v)
    (h : Radical.rootOf (s.deeper.callOf name [index, radicand]) k v =
      .error (.fault ⟨.exponentRange u, p⟩)) : s.Overflows (.call name [index, radicand]) p u := by
  simp only [Radical.rootOf_eq_error, blameArgument_callOf, Outcome.blame_eq_error] at h
  rcases h with ⟨-, hc⟩ | ⟨x, -, ⟨-, hc⟩ | ⟨n, hn, ⟨-, -, hc⟩ | ⟨-, hroot, hc⟩⟩⟩
  · cases hc
  · cases hc
  · cases hc
  · obtain ⟨symbol, hm, hdiv⟩ := CompoundUnit.map?_eq_none_iff.1 hroot
    cases hc
    exact .root hf hk hn hv hm hdiv

/-- Nothing but an operator or a root raises such a fault. -/
theorem Raises.overflows (h : s.Raises e (.fault ⟨.exponentRange u, p⟩))
    (hs : s.BuiltFrom NumericFunction.IgnoresUnits fun v => v.units.Sound) :
    s.Overflows e p u := by
  generalize hstop : Stop.fault ⟨.exponentRange u, p⟩ = stop at h
  cases h with
  | operator ho ha hb h =>
    subst hstop
    have hd : s.deeper.BuiltFrom NumericFunction.IgnoresUnits fun v => v.units.Sound :=
      hs.congr rfl rfl
    have hsound := good_of_evaluate (Value.closed_units CompoundUnit.closed_sound) hd hb
    obtain ⟨rfl, rfl, hover⟩ := Arithmetic.overflows_of_apply hsound h
    exact .operator ha hb hover
  | squareRoot hf hv h =>
    subst hstop
    exact overflows_of_squareRootOf hf hv h
  | root hf hk hv h =>
    subst hstop
    exact overflows_of_rootOf hf hk hv h
  | hosted hf => exact absurd hf hs.not_hosted
  | violation hf hx h =>
    have hcause := (Fault.mk.inj (Stop.fault.inj hstop)).1
    cases hs.functions _ _ hf with
    | numeric hg => exact absurd hcause.symm (hg _ _ _ h u)
  | addition hf hm hn hl hu htotal ht h =>
    subst hstop
    exact absurd h Arithmetic.plus_ne_exponentRange
  | _ => cases hstop

end Scope

end QuantityCalculus
