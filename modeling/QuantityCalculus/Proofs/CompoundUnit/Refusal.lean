import QuantityCalculus.Proofs.CompoundUnit.Cancellation
import QuantityCalculus.Proofs.CompoundUnit.Degree

/-!
The symbol at which two units cannot be combined. The operations on units forget it; here the same
run keeps it. A product is refused at a symbol of its left factor. A quotient may be refused at one
that the dividend lacks, but only for the least numerator, which cannot be negated.
-/
namespace QuantityCalculus.CompoundUnit

variable {u v w : CompoundUnit} {symbol : String}

section Tabulate

variable {f : String → Option Exponent} {symbols : List String}

/-- The run of `tabulate?`, which ends in the symbol without an exponent if it comes to one. -/
def tabulated (f : String → Option Exponent) :
    List String → CompoundUnit → Except String CompoundUnit
  | [], u => .ok u
  | symbol :: rest, u =>
    match f symbol with
    | some e => tabulated f rest (u.set symbol e)
    | none => .error symbol

theorem toOption_tabulated (f : String → Option Exponent) (symbols : List String)
    (u : CompoundUnit) : (tabulated f symbols u).toOption = tabulate? f symbols u := by
  induction symbols generalizing u with
  | nil => rfl
  | cons symbol rest ih =>
    rw [tabulated, tabulate?]
    cases f symbol with
    | none => rfl
    | some e => exact ih (u.set symbol e)

theorem tabulated_append (f : String → Option Exponent) (symbols others : List String)
    (u : CompoundUnit) :
    tabulated f (symbols ++ others) u = (do tabulated f others (← tabulated f symbols u)) := by
  induction symbols generalizing u with
  | nil => rfl
  | cons symbol rest ih =>
    rw [List.cons_append, tabulated, tabulated]
    cases f symbol with
    | none => rfl
    | some e => exact ih (u.set symbol e)

theorem of_tabulated_eq_error (h : tabulated f symbols u = .error symbol) :
    symbol ∈ symbols ∧ f symbol = none := by
  induction symbols generalizing u with
  | nil => cases h
  | cons first rest ih =>
    rw [tabulated] at h
    cases hf : f first with
    | none =>
      rw [hf] at h
      obtain rfl : first = symbol := Except.error.inj h
      exact ⟨List.mem_cons_self, hf⟩
    | some e =>
      rw [hf] at h
      obtain ⟨hm, hnone⟩ := ih h
      exact ⟨List.mem_cons_of_mem first hm, hnone⟩

theorem ne_none_of_tabulated_eq_ok (h : tabulated f symbols u = .ok w) {other : String}
    (hm : other ∈ symbols) : f other ≠ none := by
  intro hnone
  have hrefused : tabulate? f symbols u = none := tabulate?_eq_none_iff.2 ⟨other, hm, hnone⟩
  rw [← toOption_tabulated, h] at hrefused
  cases hrefused

end Tabulate

section Combine

variable {op : Exponent → Exponent → Option Exponent}

/-- The run of `combine?`, which ends in the symbol that is refused if it comes to one. -/
def combined (u v : CompoundUnit) (op : Exponent → Exponent → Option Exponent) :
    Except String CompoundUnit :=
  tabulated (fun symbol => op (u.exponent symbol) (v.exponent symbol)) (symbolsOfBoth u v)
    dimensionless

theorem toOption_combined (u v : CompoundUnit) (op : Exponent → Exponent → Option Exponent) :
    (u.combined v op).toOption = u.combine? v op :=
  toOption_tabulated _ _ _

theorem combine?_eq_none_iff_combined :
    u.combine? v op = none ↔ ∃ symbol, u.combined v op = .error symbol := by
  rw [← toOption_combined]
  cases u.combined v op with
  | ok w => simp [Except.toOption]
  | error symbol => simp [Except.toOption]

/-- The symbols of the left unit come first: a refused symbol that is not among them is refused
against the exponent zero, and none of them is. -/
theorem of_combined_eq_error (h : u.combined v op = .error symbol) :
    op (u.exponent symbol) (v.exponent symbol) = none ∧
      (symbol ∈ u.symbols ∨ symbol ∉ u.symbols ∧ op .zero (v.exponent symbol) = none ∧
        ∀ other ∈ u.symbols, op (u.exponent other) (v.exponent other) ≠ none) := by
  have hnone := (of_tabulated_eq_error h).2
  refine ⟨hnone, ?_⟩
  by_cases hm : symbol ∈ u.symbols
  · exact .inl hm
  · rw [exponent_of_not_mem hm] at hnone
    rw [combined, symbolsOfBoth, tabulated_append] at h
    cases hleft : tabulated (fun s => op (u.exponent s) (v.exponent s)) u.symbols dimensionless with
    | error other =>
      rw [hleft] at h
      obtain rfl : other = symbol := Except.error.inj h
      exact absurd (of_tabulated_eq_error hleft).1 hm
    | ok w => exact .inr ⟨hm, hnone, fun other ho => ne_none_of_tabulated_eq_ok hleft ho⟩

/-- A fraction that fits in lowest terms is what it adds to zero. -/
theorem mem_symbols_of_combined_add? (hv : v.Proper) (hrange : v.InRange)
    (hr : Representable (v.degree symbol)) (h : u.combined v Exponent.add? = .error symbol) :
    symbol ∈ u.symbols := by
  obtain ⟨-, hm | ⟨-, hnone, -⟩⟩ := of_combined_eq_error h
  · exact hm
  · have hnot := (Exponent.zero_add?_eq_none_iff (hv.exponent symbol)
      (hrange.exponent symbol)).1 hnone
    exact absurd hr hnot

/-- The quotient of the units is refused although no symbol of the dividend is: it lacks the symbol,
and the exponent in the divisor has the least numerator. -/
structure Unnegatable (u v : CompoundUnit) (symbol : String) : Prop where
  lacks : symbol ∉ u.symbols
  least : (v.exponent symbol).numerator = -9223372036854775808
  others : ∀ other ∈ u.symbols, (u.exponent other).sub? (v.exponent other) ≠ none

theorem mem_symbols_of_combined_sub? (hv : v.Proper) (hrange : v.InRange)
    (hr : Representable (v.degree symbol)) (h : u.combined v Exponent.sub? = .error symbol) :
    symbol ∈ u.symbols ∨ Unnegatable u v symbol := by
  obtain ⟨-, hm | ⟨hm, hnone, hothers⟩⟩ := of_combined_eq_error h
  · exact .inl hm
  · have hleast := (Exponent.zero_sub?_eq_none_iff (hv.exponent symbol)
      (hrange.exponent symbol) hr).1 hnone
    exact .inr ⟨hm, hleast, hothers⟩

end Combine

theorem exists_of_power?_eq_none {x : Float} (h : u.power? x = none) :
    ∃ symbol ∈ u.symbols, (do (u.exponent symbol).mul? (← Exponent.ofFloat? x)) = none := by
  unfold power? at h
  split at h
  · cases h
  · rename_i hunit
    cases hx : Exponent.ofFloat? x with
    | none =>
      obtain ⟨entry, hm⟩ := List.exists_mem_of_ne_nil u.entries (mt List.isEmpty_iff.2 hunit)
      exact ⟨entry.1, List.mem_map_of_mem hm, rfl⟩
    | some factor =>
      have hscale : u.scale? factor = none := by
        rw [hx] at h
        exact h
      exact map?_eq_none_iff.1 hscale

end QuantityCalculus.CompoundUnit
