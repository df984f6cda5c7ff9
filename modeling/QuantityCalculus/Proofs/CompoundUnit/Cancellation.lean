import Mathlib.Data.List.Sort
import QuantityCalculus.Proofs.CompoundUnit.Degree

/-!
Operations on compound units that undo each other: products and quotients by the same unit, roots
and powers with the same index. What undoes an operation that succeeded never leaves the range.
-/
namespace QuantityCalculus

namespace Exponent

variable {e f r : Exponent}

theorem Reduced.denominator_dvd (he : e.Reduced) {n d : Int} (h : e.ratio * d = n) :
    e.denominator ∣ d := by
  rw [ratio, div_mul_eq_mul_div, div_eq_iff he.denominator_ne_zero] at h
  have hcross : e.numerator * d = n * e.denominator := by exact_mod_cast h
  exact Exponent.denominator_dvd (f := ⟨n, d⟩) he (decide_eq_true hcross)

/-- What was formed over a common denominator fits as well over the smaller one that undoing the
operation works with. -/
theorem FitTogether.undo (h : FitTogether e f r) (he : e.Reduced) (hf : f.Reduced)
    (hr : r.Reduced) (hdvd : e.denominator ∣ Exponent.common r f) : FitTogether r f e := by
  have hpos := common_pos he hf
  have hpos' := common_pos hr hf
  have hsmaller : Exponent.common r f ∣ Exponent.common e f :=
    Int.coe_lcm_dvd h.result.dvd h.right.dvd
  have hcommon : InWord (Exponent.common r f) := by
    obtain ⟨k, hk⟩ := hsmaller
    have hk' : 0 < k := Int.pos_of_mul_pos_right (hk ▸ hpos) hpos'
    exact .of_mul hk' (by rw [mul_comm, ← hk]; exact h.common)
  exact ⟨hcommon, h.result.of_dvd hpos hpos' hsmaller (dvd_common_left r f),
    h.right.of_dvd hpos hpos' hsmaller (dvd_common_right r f),
    h.left.of_dvd hpos hpos' hsmaller hdvd⟩

theorem sub?_of_add? (he : e.Reduced) (hf : f.Reduced) (h : e.add? f = some r) :
    r.sub? f = some e := by
  obtain ⟨hr, hratio, fit⟩ := (add?_eq_some_iff he hf).1 h
  have hback : e.ratio = r.ratio - f.ratio := by rw [hratio, add_sub_cancel_right]
  refine (sub?_eq_some_iff hr hf).2 ⟨he, hback, fit.undo he hf hr ?_⟩
  apply he.denominator_dvd (n := r.numeratorOver (common r f) - f.numeratorOver (common r f))
  rw [hback, sub_mul, Int.cast_sub, cast_numeratorOver hr.proper (dvd_common_left r f),
    cast_numeratorOver hf.proper (dvd_common_right r f)]

theorem add?_of_sub? (he : e.Reduced) (hf : f.Reduced) (h : e.sub? f = some r) :
    r.add? f = some e := by
  obtain ⟨hr, hratio, fit⟩ := (sub?_eq_some_iff he hf).1 h
  have hback : e.ratio = r.ratio + f.ratio := by rw [hratio, sub_add_cancel]
  refine (add?_eq_some_iff hr hf).2 ⟨he, hback, fit.undo he hf hr ?_⟩
  apply he.denominator_dvd (n := r.numeratorOver (common r f) + f.numeratorOver (common r f))
  rw [hback, add_mul, Int.cast_add, cast_numeratorOver hr.proper (dvd_common_left r f),
    cast_numeratorOver hf.proper (dvd_common_right r f)]

section Index

variable {index : Nat}

theorem ratio_index_ne_zero (h : 0 < index) : (ofInt index).ratio ≠ 0 := by
  rw [ratio_ofInt]
  exact_mod_cast h.ne'

theorem mul?_of_div? (he : e.Reduced) (hrange : e.InRange) (hindex : 0 < index)
    (h : e.div? (.ofInt index) = some r) : r.mul? (.ofInt index) = some e := by
  obtain ⟨hr, -, hratio⟩ :=
    (div?_eq_some_iff he (reduced_ofInt index) (Int.natCast_pos.2 hindex)).1 h
  refine (mul?_eq_some_iff hr (reduced_ofInt index)).2 ⟨he, hrange, ?_⟩
  rw [hratio, div_mul_cancel₀ _ (ratio_index_ne_zero hindex)]

theorem div?_of_mul? (he : e.Reduced) (hrange : e.InRange) (hindex : 0 < index)
    (h : e.mul? (.ofInt index) = some r) : r.div? (.ofInt index) = some e := by
  obtain ⟨hr, -, hratio⟩ := (mul?_eq_some_iff he (reduced_ofInt index)).1 h
  refine (div?_eq_some_iff hr (reduced_ofInt index) (Int.natCast_pos.2 hindex)).2 ⟨he, hrange, ?_⟩
  rw [hratio, mul_div_cancel_right₀ _ (ratio_index_ne_zero hindex)]

/-- Only one exponent has a given multiple. -/
theorem eq_of_mul? (he : e.Reduced) (hf : f.Reduced) (hindex : 0 < index)
    (h : e.mul? (.ofInt index) = some r) (h' : f.mul? (.ofInt index) = some r) : e = f := by
  obtain ⟨-, -, hratio⟩ := (mul?_eq_some_iff he (reduced_ofInt index)).1 h
  obtain ⟨-, -, hratio'⟩ := (mul?_eq_some_iff hf (reduced_ofInt index)).1 h'
  exact he.eq_of_ratio hf
    (mul_right_cancel₀ (ratio_index_ne_zero hindex) (hratio.symm.trans hratio'))

end Index

end Exponent

namespace CompoundUnit

variable {u v w : CompoundUnit}

/-- The exponents are stored in words. -/
def InRange (u : CompoundUnit) : Prop :=
  ∀ entry ∈ u.entries, entry.2.InRange

instance (u : CompoundUnit) : Decidable u.InRange :=
  inferInstanceAs (Decidable (∀ entry ∈ u.entries, entry.2.InRange))

theorem InRange.exponent (h : u.InRange) (symbol : String) : (u.exponent symbol).InRange := by
  unfold CompoundUnit.exponent
  cases hl : u.entries.lookup symbol with
  | none => exact ⟨by decide, by decide⟩
  | some e => exact h _ (mem_of_lookup hl)

theorem divide?_of_multiply? (hu : u.Canonical) (hv : v.Canonical) (h : u.multiply? v = some w) :
    w.divide? v = some u := by
  have hw := hu.multiply? hv h
  rw [divide?_eq_some_iff hw hv hu]
  intro symbol
  exact Exponent.sub?_of_add? (hu.reduced.exponent symbol) (hv.reduced.exponent symbol)
    ((multiply?_eq_some_iff hu hv hw).1 h symbol)

theorem multiply?_of_divide? (hu : u.Canonical) (hv : v.Canonical) (h : u.divide? v = some w) :
    w.multiply? v = some u := by
  have hw := hu.divide? hv h
  rw [multiply?_eq_some_iff hw hv hu]
  intro symbol
  exact Exponent.add?_of_sub? (hu.reduced.exponent symbol) (hv.reduced.exponent symbol)
    ((divide?_eq_some_iff hu hv hw).1 h symbol)

/-- A product divided by one of its factors is the other factor, and a quotient multiplied by its
divisor is the dividend. Both exist whenever the product or the quotient does. -/
theorem multiply_divide_cancel (hu : u.Canonical) (hv : v.Canonical) :
    (∀ w, u.multiply? v = some w → w.divide? v = some u ∧ w.divide? u = some v) ∧
      ∀ w, u.divide? v = some w → w.multiply? v = some u := by
  constructor
  · intro w h
    exact ⟨divide?_of_multiply? hu hv h, divide?_of_multiply? hv hu (multiply?_comm u v ▸ h)⟩
  · intro w h
    exact multiply?_of_divide? hu hv h

/-- The least exponent there is comes back after a factor that moved it away, a symbol that has
cancelled comes back with its fraction, and a fraction reduced on the way is found again. -/
theorem multiply_divide_cancel_sample : ∃ u v w q : CompoundUnit, u.Canonical ∧ v.Canonical ∧
    u.multiply? v = some w ∧ w.divide? v = some u ∧ w.divide? u = some v ∧ u.divide? v = some q ∧
    q.multiply? v = some u := by
  let u : CompoundUnit := ⟨[("a", ⟨-9223372036854775808, 1⟩), ("b", ⟨1, 2⟩), ("c", ⟨1, 6⟩)]⟩
  let v : CompoundUnit := ⟨[("b", ⟨-1, 2⟩), ("c", ⟨1, 3⟩)]⟩
  have hu : u.Canonical := by decide
  have hv : v.Canonical := by decide
  have hproduct : u.multiply? v =
      some ⟨[("a", ⟨-9223372036854775808, 1⟩), ("c", ⟨1, 2⟩)]⟩ := by decide
  have hquotient : u.divide? v =
      some ⟨[("a", ⟨-9223372036854775808, 1⟩), ("b", ⟨1, 1⟩), ("c", ⟨-1, 6⟩)]⟩ := by decide
  obtain ⟨hback, hforth⟩ := multiply_divide_cancel hu hv
  exact ⟨u, v, _, _, hu, hv, hproduct, (hback _ hproduct).1, (hback _ hproduct).2, hquotient,
    hforth _ hquotient⟩

theorem eq_symbols_of_isZero (hu : u.Ordered) (hw : w.Ordered) (hu' : u.ZeroFree)
    (hw' : w.ZeroFree) (h : ∀ symbol, (w.exponent symbol).isZero = (u.exponent symbol).isZero) :
    w.symbols = u.symbols := by
  have hsorted : ∀ v : CompoundUnit, v.Ordered → v.symbols.Pairwise (· < ·) := by
    intro v hv
    exact List.pairwise_map.2 hv
  apply (hsorted w hw).eq_of_mem_iff (hsorted u hu)
  intro symbol
  rw [hw'.mem_symbols_iff, hu'.mem_symbols_iff, h symbol]

section Index

variable {index : Nat} {p r : CompoundUnit}

theorem scale?_of_root? (hu : u.Canonical) (hrange : u.InRange) (hindex : 0 < index)
    (h : u.root? index = some r) : r.scale? (.ofInt index) = some u := by
  have hr := hu.root? h
  rw [scale?_eq_some_iff (Exponent.reduced_ofInt index) hr hu]
  intro symbol
  exact Exponent.mul?_of_div? (hu.reduced.exponent symbol) (hrange.exponent symbol) hindex
    ((root?_eq_some_iff hindex hu hr).1 h symbol)

theorem root?_of_scale? (hu : u.Canonical) (hrange : u.InRange) (hindex : 0 < index)
    (h : u.scale? (.ofInt index) = some p) : p.root? index = some u := by
  have hfactor : (Exponent.ofInt index).Reduced := Exponent.reduced_ofInt index
  have hp := hu.scale? hfactor h
  rw [root?_eq_some_iff hindex hp hu]
  intro symbol
  exact Exponent.div?_of_mul? (hu.reduced.exponent symbol) (hrange.exponent symbol) hindex
    ((scale?_eq_some_iff hfactor hu hp).1 h symbol)

/-- No exponent becomes zero, whether or not it is in lowest terms. -/
theorem symbols_of_root? (ho : u.Ordered) (hz : u.ZeroFree) (hu : u.Proper) (hindex : 0 < index)
    (h : u.root? index = some r) : r.symbols = u.symbols := by
  have hr : r.Canonical := canonical_dimensionless.tabulate?
    (fun symbol _ he => Exponent.reduced_of_div? (hu.exponent symbol) he) h
  have hne : (index : ℚ) ≠ 0 := Nat.cast_ne_zero.2 hindex.ne'
  apply eq_symbols_of_isZero ho hr.ordered hz hr.zeroFree
  intro symbol
  rw [Bool.eq_iff_iff, hr.proper.isZero_iff_degree, hu.isZero_iff_degree,
    degree_root? hu hindex h, div_eq_zero_iff, or_iff_left hne]

theorem eq_of_scale? (hu : u.Canonical) (hv : v.Canonical) (hw : w.Canonical) (hindex : 0 < index)
    (h : u.scale? (.ofInt index) = some w) (h' : v.scale? (.ofInt index) = some w) : u = v := by
  have hfactor : (Exponent.ofInt index).Reduced := Exponent.reduced_ofInt index
  apply hu.ext hv
  intro symbol
  exact Exponent.eq_of_mul? (hu.reduced.exponent symbol) (hv.reduced.exponent symbol) hindex
    ((scale?_eq_some_iff hfactor hu hw).1 h symbol) ((scale?_eq_some_iff hfactor hv hw).1 h' symbol)

/-- A root raised to its index is the unit it was taken of; it has the symbols of that unit and is
the only unit with this power. The root of a power is the unit that was raised. Both exist whenever
the root or the power does. -/
theorem root_power_inverse (hu : u.Canonical) (hrange : u.InRange) (hindex : 0 < index) :
    (∀ r, u.root? index = some r →
      r.scale? (.ofInt index) = some u ∧ r.symbols = u.symbols ∧
        ∀ w : CompoundUnit, w.Canonical → w.scale? (.ofInt index) = some u → w = r) ∧
      ∀ p, u.scale? (.ofInt index) = some p → p.root? index = some u := by
  constructor
  · intro r h
    have hpower := scale?_of_root? hu hrange hindex h
    refine ⟨hpower, symbols_of_root? hu.ordered hu.zeroFree hu.proper hindex h, ?_⟩
    intro w hw hpower'
    exact eq_of_scale? hw (hu.root? h) hu hindex hpower' hpower
  · intro p h
    exact root?_of_scale? hu hrange hindex h

/-- The root of a unit with the least exponent, with one that is equal to the index and with
fractions of either sign; and the power of a unit that just fits. -/
theorem root_power_inverse_sample : ∃ u r v p : CompoundUnit, u.Canonical ∧ u.InRange ∧
    u.root? 6 = some r ∧ r.scale? (.ofInt 6) = some u ∧ r.symbols = u.symbols ∧
    (∀ w : CompoundUnit, w.Canonical → w.scale? (.ofInt 6) = some u → w = r) ∧
    v.scale? (.ofInt 4294967295) = some p ∧ p.root? 4294967295 = some v := by
  let u : CompoundUnit :=
    ⟨[("a", ⟨-9223372036854775808, 1⟩), ("b", ⟨6, 1⟩), ("c", ⟨-3, 4⟩), ("d", ⟨6, 5⟩)]⟩
  let v : CompoundUnit := ⟨[("m", ⟨2147483648, 1⟩), ("s", ⟨-1, 9223372036854775807⟩)]⟩
  have hu : u.Canonical := by decide
  have hurange : u.InRange := by decide
  have hv : v.Canonical := by decide
  have hvrange : v.InRange := by decide
  have hroot : u.root? 6 =
      some ⟨[("a", ⟨-4611686018427387904, 3⟩), ("b", ⟨1, 1⟩), ("c", ⟨-1, 8⟩), ("d", ⟨1, 5⟩)]⟩ := by
    decide
  obtain ⟨hback, hsymbols, honly⟩ := (root_power_inverse hu hurange (by decide)).1 _ hroot
  have hpower : v.scale? (.ofInt 4294967295) =
      some ⟨[("m", ⟨9223372034707292160, 1⟩), ("s", ⟨-4294967295, 9223372036854775807⟩)]⟩ := by
    decide
  exact ⟨u, _, v, _, hu, hurange, hroot, hback, hsymbols, honly, hpower,
    (root_power_inverse hv hvrange (by decide)).2 _ hpower⟩

end Index

end CompoundUnit

end QuantityCalculus
