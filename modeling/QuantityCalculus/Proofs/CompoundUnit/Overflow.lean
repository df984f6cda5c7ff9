import QuantityCalculus.Proofs.CompoundUnit.Cancellation
import QuantityCalculus.Proofs.CompoundUnit.Degree

/-!
Where the algebra of units overflows. Powers and roots are refused only when the exact exponent does
not fit. Products and quotients go through the common denominator, and may be refused on the way to
an exponent that fits.
-/
namespace QuantityCalculus

namespace Exponent

variable {e f r : Exponent} {op : Int → Int → Int}

theorem exists_inRange_iff (q : ℚ) :
    (∃ r : Exponent, r.Reduced ∧ r.InRange ∧ r.ratio = q) ↔ Representable q := by
  constructor
  · rintro ⟨r, hr, hrange, rfl⟩
    exact hr.representable_iff.2 hrange
  · intro hq
    have hpos : 0 < (q.den : Int) := Int.natCast_pos.2 q.den_pos
    exact ⟨⟨q.num, q.den⟩, ⟨hpos, q.reduced⟩, hq, Rat.num_div_den q⟩

theorem eq_none_iff_of_exact {x : Option Exponent} {q : ℚ}
    (h : ∀ r, x = some r ↔ r.Reduced ∧ r.InRange ∧ r.ratio = q) : x = none ↔ ¬ Representable q := by
  rw [← exists_inRange_iff, ← not_iff_not, not_not, ← Ne, Option.ne_none_iff_exists']
  exact exists_congr h

theorem mul?_eq_none_iff (he : e.Reduced) (hf : f.Reduced) :
    e.mul? f = none ↔ ¬ Representable (e.ratio * f.ratio) :=
  eq_none_iff_of_exact fun _ => mul?_eq_some_iff he hf

theorem div?_eq_none_iff (he : e.Reduced) (hf : f.Reduced) (hpos : 0 < f.numerator) :
    e.div? f = none ↔ ¬ Representable (e.ratio / f.ratio) :=
  eq_none_iff_of_exact fun _ => div?_eq_some_iff he hf hpos

/-- The common denominator, both numerators over it and their combination fit in a word. -/
structure FormedOver (op : Int → Int → Int) (e f : Exponent) : Prop where
  common : InWord (common e f)
  left : InWord (e.numeratorOver (Exponent.common e f))
  right : InWord (f.numeratorOver (Exponent.common e f))
  result : InWord (op (e.numeratorOver (Exponent.common e f))
    (f.numeratorOver (Exponent.common e f)))

theorem overCommon?_eq_none_iff (he : e.Reduced) (hf : f.Reduced) :
    overCommon? op e f = none ↔ ¬ FormedOver op e f := by
  rw [← not_iff_not, not_not, ← Ne, Option.ne_none_iff_exists']
  simp only [overCommon?_steps he hf]
  constructor
  · rintro ⟨_, hcommon, hleft, hright, _, rfl, hresult, -⟩
    exact ⟨hcommon, hleft, hright, hresult⟩
  · intro h
    exact ⟨_, h.common, h.left, h.right, _, rfl, h.result, rfl⟩

theorem FormedOver.representable {opRat : ℚ → ℚ → ℚ}
    (hop : ∀ m n d : Int, (op m n : ℚ) / d = opRat (m / d) (n / d)) (he : e.Reduced)
    (hf : f.Reduced) (h : FormedOver op e f) : Representable (opRat e.ratio f.ratio) := by
  have hsome : overCommon? op e f ≠ none := fun hnone =>
    (overCommon?_eq_none_iff he hf).1 hnone h
  obtain ⟨r, hr⟩ := Option.ne_none_iff_exists'.1 hsome
  rw [← ratio_of_overCommon? hop he.proper hf.proper hr,
    (reduced_of_overCommon? he.proper hf.proper hr).representable_iff]
  exact inRange_of_overCommon? hr

/-- Nothing but the sum of the numerators can overflow when an exponent is doubled. -/
theorem formedOver_self_iff (he : e.Reduced) (hrange : e.InRange) :
    FormedOver (· + ·) e e ↔ InWord (2 * e.numerator) := by
  have hcommon := common_self he
  have hover : e.numeratorOver (common e e) = e.numerator :=
    hcommon.symm ▸ he.numeratorOver_denominator
  constructor
  · intro h
    have hresult := h.result
    simp only [hover, ← two_mul] at hresult
    exact hresult
  · intro h
    refine ⟨hcommon ▸ hrange.2, hover.symm ▸ hrange.1, hover.symm ▸ hrange.1, ?_⟩
    simp only [hover, ← two_mul]
    exact h

end Exponent

namespace CompoundUnit

open Exponent

variable {u v r : CompoundUnit} {factor : Exponent} {index : Nat} {op : Int → Int → Int}

theorem scale?_eq_none_iff (hu : u.Canonical) (hfactor : factor.Reduced) :
    u.scale? factor = none ↔ ∃ symbol, ¬ Representable (u.degree symbol * factor.ratio) := by
  have hzero : Exponent.zero.mul? factor ≠ none := by
    rw [Ne, mul?_eq_none_iff reduced_zero hfactor, not_not, ratio_zero, zero_mul]
    decide
  rw [scale?, map?_eq_none_iff_exists hzero]
  apply exists_congr
  intro symbol
  exact mul?_eq_none_iff (hu.reduced.exponent symbol) hfactor

theorem root?_eq_none_iff (hu : u.Canonical) (hindex : 0 < index) :
    u.root? index = none ↔ ∃ symbol, ¬ Representable (u.degree symbol / index) := by
  have hrefused {e : Exponent} (he : e.Reduced) :
      e.div? (.ofInt index) = none ↔ ¬ Representable (e.ratio / index) := by
    rw [div?_eq_none_iff he (reduced_ofInt index) (Int.natCast_pos.2 hindex), ratio_ofInt,
      Int.cast_natCast]
  have hzero : Exponent.zero.div? (.ofInt index) ≠ none := by
    rw [Ne, hrefused reduced_zero, not_not, ratio_zero, zero_div]
    decide
  rw [root?, map?_eq_none_iff_exists (f := fun e => e.div? (.ofInt index)) hzero]
  apply exists_congr
  intro symbol
  exact hrefused (hu.reduced.exponent symbol)

theorem combine?_overCommon?_eq_none_iff (hzero : overCommon? op .zero .zero ≠ none)
    (hu : u.Canonical) (hv : v.Canonical) :
    u.combine? v (overCommon? op) = none ↔
      ∃ symbol, ¬ FormedOver op (u.exponent symbol) (v.exponent symbol) := by
  rw [combine?_eq_none_iff_exists hzero]
  apply exists_congr
  intro symbol
  exact overCommon?_eq_none_iff (hu.reduced.exponent symbol) (hv.reduced.exponent symbol)

theorem multiply?_eq_none_iff (hu : u.Canonical) (hv : v.Canonical) :
    u.multiply? v = none ↔
      ∃ symbol, ¬ FormedOver (· + ·) (u.exponent symbol) (v.exponent symbol) :=
  combine?_overCommon?_eq_none_iff (by decide) hu hv

theorem divide?_eq_none_iff (hu : u.Canonical) (hv : v.Canonical) :
    u.divide? v = none ↔
      ∃ symbol, ¬ FormedOver (· - ·) (u.exponent symbol) (v.exponent symbol) :=
  combine?_overCommon?_eq_none_iff (by decide) hu hv

theorem InRange.root? (hu : u.Canonical) (hindex : 0 < index) (h : u.root? index = some r)
    (symbol : String) : (r.exponent symbol).InRange :=
  inRange_of_div? ((root?_eq_some_iff hindex hu (hu.root? h)).1 h symbol)

/-- A root of index two taken twice as a factor gives the unit back unless a numerator is too large
to be doubled over the denominator that it has. -/
theorem multiply?_of_root? (hu : u.Canonical) (h : u.root? 2 = some r) :
    r.multiply? r = some u ↔ ∀ symbol, InWord (2 * (r.exponent symbol).numerator) := by
  have hr := hu.root? h
  have hformed (symbol : String) :
      FormedOver (· + ·) (r.exponent symbol) (r.exponent symbol) ↔
        InWord (2 * (r.exponent symbol).numerator) :=
    formedOver_self_iff (hr.reduced.exponent symbol) (InRange.root? hu (by decide) h symbol)
  constructor
  · intro hsome symbol
    by_contra hword
    have hnone := (multiply?_eq_none_iff hr hr).2 ⟨symbol, mt (hformed symbol).1 hword⟩
    rw [hsome] at hnone
    cases hnone
  · intro hword
    have hsome : r.multiply? r ≠ none := by
      rw [Ne, multiply?_eq_none_iff hr hr]
      rintro ⟨symbol, hnot⟩
      exact hnot ((hformed symbol).2 (hword symbol))
    obtain ⟨w, hw⟩ := Option.ne_none_iff_exists'.1 hsome
    rw [hw]
    apply congrArg some
    apply (hr.multiply? hr hw).ext_degree hu
    intro symbol
    rw [degree_multiply? hr.proper hr.proper hw, degree_root? hu.proper (by decide) h]
    push_cast
    ring

/-- Powers and roots overflow exactly where an exact exponent does not fit. Products and quotients
overflow there too, but also where the common denominator, a numerator over it or the sum of the
numerators before it is reduced does not fit. So the square of a square root exists, whereas its
product with itself need not. -/
theorem overflow_exact (hu : u.Canonical) (hv : v.Canonical) :
    (∀ factor : Exponent, factor.Reduced → (u.scale? factor = none ↔
      ∃ symbol, ¬ Representable (u.degree symbol * factor.ratio))) ∧
    (∀ index : Nat, 0 < index → (u.root? index = none ↔
      ∃ symbol, ¬ Representable (u.degree symbol / index))) ∧
    (u.multiply? v = none ↔
      ∃ symbol, ¬ FormedOver (· + ·) (u.exponent symbol) (v.exponent symbol)) ∧
    ((∃ symbol, ¬ Representable (u.degree symbol + v.degree symbol)) → u.multiply? v = none) ∧
    (u.divide? v = none ↔
      ∃ symbol, ¬ FormedOver (· - ·) (u.exponent symbol) (v.exponent symbol)) ∧
    ((∃ symbol, ¬ Representable (u.degree symbol - v.degree symbol)) → u.divide? v = none) ∧
    (u.InRange → ∀ r, u.root? 2 = some r → r.scale? (.ofInt 2) = some u ∧
      (r.multiply? r = some u ↔ ∀ symbol, InWord (2 * (r.exponent symbol).numerator))) := by
  have hproduct := multiply?_eq_none_iff hu hv
  have hquotient := divide?_eq_none_iff hu hv
  refine ⟨fun _ hfactor => scale?_eq_none_iff hu hfactor,
    fun _ hindex => root?_eq_none_iff hu hindex, hproduct, ?_, hquotient, ?_, ?_⟩
  · rintro ⟨symbol, hsum⟩
    exact hproduct.2 ⟨symbol, fun h => hsum (h.representable cast_add_div
      (hu.reduced.exponent symbol) (hv.reduced.exponent symbol))⟩
  · rintro ⟨symbol, hdifference⟩
    exact hquotient.2 ⟨symbol, fun h => hdifference (h.representable cast_sub_div
      (hu.reduced.exponent symbol) (hv.reduced.exponent symbol))⟩
  · intro hrange r h
    exact ⟨scale?_of_root? hu hrange (by decide) h, multiply?_of_root? hu h⟩

/-- A power and a root with a denominator that is too large, a product refused for the common
denominator, a quotient refused for its numerator, and a square root that can be multiplied by
itself. -/
theorem overflow_exact_sample : ∃ u v r : CompoundUnit, u.Canonical ∧ v.Canonical ∧ u.InRange ∧
    u.scale? ⟨1, 4294967296⟩ = none ∧ u.root? 4294967295 = none ∧
    (∃ symbol, ¬ FormedOver (· + ·) (u.exponent symbol) (v.exponent symbol)) ∧
    u.divide? v = none ∧ u.root? 2 = some r ∧ r.scale? (.ofInt 2) = some u ∧
    r.multiply? r = some u ∧ ∀ symbol, InWord (2 * (r.exponent symbol).numerator) := by
  let u : CompoundUnit := ⟨[("a", ⟨4, 1⟩), ("b", ⟨1, 4294967297⟩)]⟩
  let v : CompoundUnit := ⟨[("a", ⟨-9223372036854775808, 1⟩), ("b", ⟨1, 4294967295⟩)]⟩
  let r : CompoundUnit := ⟨[("a", ⟨2, 1⟩), ("b", ⟨1, 8589934594⟩)]⟩
  have hu : u.Canonical := by decide
  have hv : v.Canonical := by decide
  have hrange : u.InRange := by decide
  have hroot : u.root? 2 = some r := by decide
  obtain ⟨hscale, hindex, hproduct, -, -, hquotient, hsquare⟩ := overflow_exact hu hv
  have hpower : ¬ Representable (u.degree "b" * Exponent.ratio ⟨1, 4294967296⟩) := by
    decide +kernel
  have hpart : ¬ Representable (u.degree "b" / (4294967295 : Nat)) := by decide +kernel
  have hdifference : ¬ Representable (u.degree "a" - v.degree "a") := by decide +kernel
  obtain ⟨hback, hself⟩ := hsquare hrange r hroot
  have hproductSelf : r.multiply? r = some u := by decide
  exact ⟨u, v, r, hu, hv, hrange, (hscale _ (by decide)).2 ⟨"b", hpower⟩,
    (hindex _ (by decide)).2 ⟨"b", hpart⟩, hproduct.1 (by decide), hquotient ⟨"a", hdifference⟩,
    hroot, hback, hproductSelf, hself.1 hproductSelf⟩

/-- The square root of the greatest integer exponent is halved to the greatest numerator, which is
doubled before the halves cancel: its square exists, its product with itself does not, although
every exponent of that product would fit. -/
theorem product_refused : ∃ u r : CompoundUnit, u.Canonical ∧ u.InRange ∧ u.root? 2 = some r ∧
    r.scale? (.ofInt 2) = some u ∧ r.multiply? r = none ∧
    ∀ symbol, Representable (r.degree symbol + r.degree symbol) := by
  let u : CompoundUnit := ⟨[("m", ⟨9223372036854775807, 1⟩)]⟩
  let r : CompoundUnit := ⟨[("m", ⟨9223372036854775807, 2⟩)]⟩
  have hu : u.Canonical := by decide
  have hrange : u.InRange := by decide
  have hr : r.Canonical := by decide
  have hroot : u.root? 2 = some r := by decide
  have hpower : r.scale? (.ofInt 2) = some u := by decide
  refine ⟨u, r, hu, hrange, hroot, hpower, by decide, ?_⟩
  intro symbol
  have hsum : r.degree symbol + r.degree symbol = (u.exponent symbol).ratio := by
    rw [← mul_two, ← degree, degree_scale? hr.proper (reduced_ofInt 2).proper hpower, ratio_ofInt]
    rfl
  rw [hsum, (hu.reduced.exponent symbol).representable_iff]
  exact hrange.exponent symbol

end CompoundUnit

end QuantityCalculus
