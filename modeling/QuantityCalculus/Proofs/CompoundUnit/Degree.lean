import QuantityCalculus.Proofs.CompoundUnit.Pointwise

/-!
The exponents of a unit as rational numbers. Sums, differences, products and quotients of exponents
are exact wherever they exist, also of fractions that are not in lowest terms, and so are the
operations on units that go by them.
-/
namespace QuantityCalculus

namespace CompoundUnit

variable {u v w : CompoundUnit} {symbol : String} {factor : Exponent} {index : Nat}

/-- No fraction over zero is stored. -/
def Proper (u : CompoundUnit) : Prop :=
  ∀ entry ∈ u.entries, entry.2.Proper

instance (u : CompoundUnit) : Decidable u.Proper :=
  inferInstanceAs (Decidable (∀ entry ∈ u.entries, entry.2.Proper))

theorem Reduced.proper (h : u.Reduced) : u.Proper :=
  fun entry hm => (h entry hm).proper

theorem Canonical.proper (h : u.Canonical) : u.Proper :=
  h.reduced.proper

theorem Proper.exponent (h : u.Proper) (symbol : String) : (u.exponent symbol).Proper := by
  unfold CompoundUnit.exponent
  cases hl : u.entries.lookup symbol with
  | none => exact Exponent.reduced_zero.proper
  | some e => exact h _ (mem_of_lookup hl)

/-- The coordinate of a unit at a symbol. -/
def degree (u : CompoundUnit) (symbol : String) : ℚ :=
  (u.exponent symbol).ratio

theorem Proper.isZero_iff_degree (h : u.Proper) :
    (u.exponent symbol).isZero = true ↔ u.degree symbol = 0 :=
  Exponent.isZero_iff_ratio (h.exponent symbol)

theorem degree_of_not_mem (h : symbol ∉ u.symbols) : u.degree symbol = 0 := by
  rw [degree, exponent_of_not_mem h, Exponent.ratio_zero]

theorem degree_tabulate? {f : String → Option Exponent} {symbols : List String} {g : String → ℚ}
    (hf : ∀ symbol e, f symbol = some e → e.ratio = g symbol)
    (hout : ∀ symbol, symbol ∉ symbols → g symbol = 0)
    (h : tabulate? f symbols dimensionless = some w) (symbol : String) :
    w.degree symbol = g symbol := by
  by_cases hs : symbol ∈ symbols
  · obtain ⟨e, he, hw⟩ := exponent_tabulate? h hs
    rw [degree, hw, ← hf symbol e he]
    split
    · rename_i hzero
      rw [Exponent.ratio_zero, Exponent.ratio_eq_zero hzero]
    · rfl
  · rw [hout symbol hs, degree, exponent_tabulate?_of_not_mem h hs]
    exact Exponent.ratio_zero

theorem degree_combine? {op : Exponent → Exponent → Option Exponent} {opRat : ℚ → ℚ → ℚ}
    (hop : ∀ e f r, e.Proper → f.Proper → op e f = some r → r.ratio = opRat e.ratio f.ratio)
    (hzero : opRat 0 0 = 0) (hu : u.Proper) (hv : v.Proper) (h : u.combine? v op = some w)
    (symbol : String) : w.degree symbol = opRat (u.degree symbol) (v.degree symbol) := by
  refine degree_tabulate? (g := fun symbol => opRat (u.degree symbol) (v.degree symbol)) ?_ ?_ h
    symbol
  · intro symbol e he
    exact hop _ _ e (hu.exponent symbol) (hv.exponent symbol) he
  · intro symbol hs
    obtain ⟨hsu, hsv⟩ := not_or.1 (mt mem_symbolsOfBoth.2 hs)
    rw [degree_of_not_mem hsu, degree_of_not_mem hsv, hzero]

theorem degree_map? {f : Exponent → Option Exponent} {g : ℚ → ℚ}
    (hf : ∀ e r, e.Proper → f e = some r → r.ratio = g e.ratio) (hzero : g 0 = 0)
    (hu : u.Proper) (h : u.map? f = some w) (symbol : String) :
    w.degree symbol = g (u.degree symbol) := by
  refine degree_tabulate? (g := fun symbol => g (u.degree symbol)) ?_ ?_ h symbol
  · intro symbol e he
    exact hf _ e (hu.exponent symbol) he
  · intro symbol hs
    rw [degree_of_not_mem hs, hzero]

theorem degree_multiply? (hu : u.Proper) (hv : v.Proper) (h : u.multiply? v = some w)
    (symbol : String) : w.degree symbol = u.degree symbol + v.degree symbol :=
  degree_combine? (fun _ _ _ he hf => Exponent.ratio_of_add? he hf) (add_zero 0) hu hv h symbol

theorem degree_divide? (hu : u.Proper) (hv : v.Proper) (h : u.divide? v = some w)
    (symbol : String) : w.degree symbol = u.degree symbol - v.degree symbol :=
  degree_combine? (fun _ _ _ he hf => Exponent.ratio_of_sub? he hf) (sub_zero 0) hu hv h symbol

theorem degree_scale? (hu : u.Proper) (hfactor : factor.Proper) (h : u.scale? factor = some w)
    (symbol : String) : w.degree symbol = u.degree symbol * factor.ratio :=
  degree_map? (g := fun q => q * factor.ratio)
    (fun _ _ he => Exponent.ratio_of_mul? he hfactor) (zero_mul _) hu h symbol

theorem degree_root? (hu : u.Proper) (hindex : 0 < index) (h : u.root? index = some w)
    (symbol : String) : w.degree symbol = u.degree symbol / index := by
  have hproper : (Exponent.ofInt index).Proper := (Exponent.reduced_ofInt index).proper
  have hne : (Exponent.ofInt index).numerator ≠ 0 := Int.natCast_ne_zero.2 hindex.ne'
  have hquotient := degree_map? (g := fun q => q / (Exponent.ofInt index).ratio)
    (fun _ _ he => Exponent.ratio_of_div? he hproper hne) (zero_div _) hu h symbol
  rw [hquotient, Exponent.ratio_ofInt, Int.cast_natCast]

theorem Canonical.ext_degree (hu : u.Canonical) (hv : v.Canonical)
    (h : ∀ symbol, u.degree symbol = v.degree symbol) : u = v := by
  apply hu.ext hv
  intro symbol
  exact (hu.reduced.exponent symbol).eq_of_ratio (hv.reduced.exponent symbol) (h symbol)

end CompoundUnit

end QuantityCalculus
