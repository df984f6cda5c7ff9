import Mathlib.Tactic.Ring
import QuantityCalculus.Proofs.CompoundUnit.Cancellation
import QuantityCalculus.Proofs.CompoundUnit.Degree

/-!
Compound units as vectors. The exponents of a unit are its coordinates, a product adds them and a
power scales them by a rational number. The laws of a vector space hold as far as both of their
sides have a result; a side that leaves the range on the way has none.
-/
namespace QuantityCalculus

namespace Exponent

variable {e : Exponent} {d : Int}

theorem Reduced.fitsOver (he : e.Reduced) (hrange : e.InRange) : e.FitsOver e.denominator := 
  ⟨dvd_rfl, he.numeratorOver_denominator.symm ▸ hrange.1⟩

theorem fitsOver_zero (d : Int) : zero.FitsOver d := by
  refine ⟨one_dvd d, ?_⟩
  rw [numeratorOver, show zero.numerator = 0 from rfl, mul_zero]
  decide

theorem add?_zero (he : e.Reduced) (hrange : e.InRange) : e.add? .zero = some e := by
  rw [add?_comm, zero_add? he.proper hrange, he.reduce?_self hrange]

theorem sub?_self (he : e.Reduced) (hrange : e.InRange) : e.sub? e = some .zero := by
  have hfits := he.fitsOver hrange
  rw [sub?_eq_some_iff he he]
  refine ⟨reduced_zero, by rw [ratio_zero, sub_self], ?_, ?_, ?_, ?_⟩ <;> rw [common_self he]
  · exact hrange.2
  · exact hfits
  · exact hfits
  · exact fitsOver_zero _

end Exponent

namespace CompoundUnit

variable {u v w : CompoundUnit} {r s t : Exponent}

/-- Where both computations have a result they have the same. -/
def Agree (x y : Option CompoundUnit) : Prop :=
  ∀ u v, x = some u → y = some v → u = v

section Laws

theorem multiply?_assoc (hu : u.Canonical) (hv : v.Canonical) (hw : w.Canonical) :
    Agree (do (← u.multiply? v).multiply? w) (do u.multiply? (← v.multiply? w)) := by
  intro x y hx hy
  obtain ⟨uv, huv, hx⟩ := Option.bind_eq_some_iff.1 hx
  obtain ⟨vw, hvw, hy⟩ := Option.bind_eq_some_iff.1 hy
  have huv' := hu.multiply? hv huv
  have hvw' := hv.multiply? hw hvw
  apply (huv'.multiply? hw hx).ext_degree (hu.multiply? hvw' hy)
  intro symbol
  rw [degree_multiply? huv'.proper hw.proper hx, degree_multiply? hu.proper hv.proper huv,
    degree_multiply? hu.proper hvw'.proper hy, degree_multiply? hv.proper hw.proper hvw, add_assoc]

theorem multiply?_dimensionless (hu : u.Canonical) (hrange : u.InRange) :
    u.multiply? dimensionless = some u := by
  rw [multiply?_eq_some_iff hu canonical_dimensionless hu]
  intro symbol
  exact Exponent.add?_zero (hu.reduced.exponent symbol) (hrange.exponent symbol)

theorem divide?_self (hu : u.Canonical) (hrange : u.InRange) : u.divide? u = some dimensionless := by
  rw [divide?_eq_some_iff hu hu canonical_dimensionless]
  intro symbol
  exact Exponent.sub?_self (hu.reduced.exponent symbol) (hrange.exponent symbol)

theorem divide?_agree (hu : u.Canonical) (hv : v.Canonical) :
    Agree (u.divide? v) (do u.multiply? (← v.scale? (.ofInt (-1)))) := by
  intro x y hx hy
  obtain ⟨n, hn, hy⟩ := Option.bind_eq_some_iff.1 hy
  have hminus : (Exponent.ofInt (-1)).Reduced := Exponent.reduced_ofInt (-1)
  have hn' := hv.scale? hminus hn
  apply (hu.divide? hv hx).ext_degree (hu.multiply? hn' hy)
  intro symbol
  rw [degree_divide? hu.proper hv.proper hx, degree_multiply? hu.proper hn'.proper hy,
    degree_scale? hv.proper hminus.proper hn, Exponent.ratio_ofInt]
  push_cast
  ring

theorem scale?_multiply? (hu : u.Canonical) (hv : v.Canonical) (hr : r.Reduced) :
    Agree (do (← u.multiply? v).scale? r) (do (← u.scale? r).multiply? (← v.scale? r)) := by
  intro x y hx hy
  obtain ⟨uv, huv, hx⟩ := Option.bind_eq_some_iff.1 hx
  obtain ⟨ur, hur, hy⟩ := Option.bind_eq_some_iff.1 hy
  obtain ⟨vr, hvr, hy⟩ := Option.bind_eq_some_iff.1 hy
  have huv' := hu.multiply? hv huv
  have hur' := hu.scale? hr hur
  have hvr' := hv.scale? hr hvr
  apply (huv'.scale? hr hx).ext_degree (hur'.multiply? hvr' hy)
  intro symbol
  rw [degree_scale? huv'.proper hr.proper hx, degree_multiply? hu.proper hv.proper huv,
    degree_multiply? hur'.proper hvr'.proper hy, degree_scale? hu.proper hr.proper hur,
    degree_scale? hv.proper hr.proper hvr, add_mul]

theorem scale?_scale? (hu : u.Canonical) (hr : r.Reduced) (hs : s.Reduced) (ht : t.Reduced)
    (h : t.ratio = r.ratio * s.ratio) : Agree (do (← u.scale? r).scale? s) (u.scale? t) := by
  intro x y hx hy
  obtain ⟨ur, hur, hx⟩ := Option.bind_eq_some_iff.1 hx
  have hur' := hu.scale? hr hur
  apply (hur'.scale? hs hx).ext_degree (hu.scale? ht hy)
  intro symbol
  rw [degree_scale? hur'.proper hs.proper hx, degree_scale? hu.proper hr.proper hur,
    degree_scale? hu.proper ht.proper hy, h, mul_assoc]

theorem multiply?_scale? (hu : u.Canonical) (hr : r.Reduced) (hs : s.Reduced) (ht : t.Reduced)
    (h : t.ratio = r.ratio + s.ratio) :
    Agree (do (← u.scale? r).multiply? (← u.scale? s)) (u.scale? t) := by
  intro x y hx hy
  obtain ⟨ur, hur, hx⟩ := Option.bind_eq_some_iff.1 hx
  obtain ⟨us, hus, hx⟩ := Option.bind_eq_some_iff.1 hx
  have hur' := hu.scale? hr hur
  have hus' := hu.scale? hs hus
  apply (hur'.multiply? hus' hx).ext_degree (hu.scale? ht hy)
  intro symbol
  rw [degree_multiply? hur'.proper hus'.proper hx, degree_scale? hu.proper hr.proper hur,
    degree_scale? hu.proper hs.proper hus, degree_scale? hu.proper ht.proper hy, h, mul_add]

end Laws

section Powers

variable {x : Float}

/-- Where the power stands for a fraction, the exception for the dimensionless unit is none. -/
theorem power?_eq_scale? (h : Exponent.ofFloat? x = some r) : u.power? x = u.scale? r := by
  obtain ⟨entries⟩ := u
  cases entries with
  | nil => rfl
  | cons entry rest => simp [power?, isDimensionless, h]

theorem eq_dimensionless_of_power? (h : Exponent.ofFloat? x = none) (hw : u.power? x = some w) :
    u = dimensionless ∧ w = dimensionless := by
  obtain ⟨entries⟩ := u
  cases entries with
  | nil => exact ⟨rfl, (Option.some.inj hw).symm⟩
  | cons entry rest => simp [power?, isDimensionless, h] at hw

theorem power?_multiply? (hu : u.Canonical) (hv : v.Canonical) :
    Agree (do (← u.multiply? v).power? x) (do (← u.power? x).multiply? (← v.power? x)) := by
  cases h : Exponent.ofFloat? x with
  | some r =>
    simp only [power?_eq_scale? h]
    exact scale?_multiply? hu hv (Exponent.reduced_of_ofFloat? h)
  | none =>
    intro p q hp hq
    obtain ⟨uv, -, hp⟩ := Option.bind_eq_some_iff.1 hp
    obtain ⟨ux, hux, hq⟩ := Option.bind_eq_some_iff.1 hq
    obtain ⟨vx, hvx, hq⟩ := Option.bind_eq_some_iff.1 hq
    obtain ⟨-, rfl⟩ := eq_dimensionless_of_power? h hp
    obtain ⟨-, rfl⟩ := eq_dimensionless_of_power? h hux
    obtain ⟨-, rfl⟩ := eq_dimensionless_of_power? h hvx
    exact Option.some.inj hq

end Powers

/-- The laws of a vector space over the rational numbers, of which some sides may have no result.
The commutative law and those of the neutral and the inverse element hold without exception. -/
theorem rational_vector_space (hu : u.Canonical) (hv : v.Canonical) (hw : w.Canonical)
    (hrange : u.InRange) (hr : r.Reduced) (hs : s.Reduced) (x : Float) :
    Agree (do (← u.multiply? v).multiply? w) (do u.multiply? (← v.multiply? w)) ∧
    Agree (u.divide? v) (do u.multiply? (← v.scale? (.ofInt (-1)))) ∧
    Agree (do (← u.multiply? v).scale? r) (do (← u.scale? r).multiply? (← v.scale? r)) ∧
    (∀ t : Exponent, t.Reduced → t.ratio = r.ratio * s.ratio →
      Agree (do (← u.scale? r).scale? s) (u.scale? t)) ∧
    (∀ t : Exponent, t.Reduced → t.ratio = r.ratio + s.ratio →
      Agree (do (← u.scale? r).multiply? (← u.scale? s)) (u.scale? t)) ∧
    Agree (do (← u.multiply? v).power? x) (do (← u.power? x).multiply? (← v.power? x)) ∧
    u.multiply? v = v.multiply? u ∧
    u.multiply? dimensionless = some u ∧
    u.divide? u = some dimensionless :=
  ⟨multiply?_assoc hu hv hw, divide?_agree hu hv, scale?_multiply? hu hv hr,
    fun _ ht h => scale?_scale? hu hr hs ht h, fun _ ht h => multiply?_scale? hu hr hs ht h,
    power?_multiply? hu hv, multiply?_comm u v, multiply?_dimensionless hu hrange,
    divide?_self hu hrange⟩

/-- A symbol that cancels on one way only, and fractions that are halved before or after they are
added. -/
theorem rational_vector_space_sample : ∃ u v w p q h k : CompoundUnit, u.Canonical ∧ v.Canonical ∧
    w.Canonical ∧ u.InRange ∧ (do (← u.multiply? v).multiply? w) = some p ∧
    (do u.multiply? (← v.multiply? w)) = some q ∧ p = q ∧
    (do (← u.multiply? v).scale? ⟨1, 2⟩) = some h ∧
    (do (← u.scale? ⟨1, 2⟩).multiply? (← v.scale? ⟨1, 2⟩)) = some k ∧ h = k ∧
    u.multiply? v = v.multiply? u ∧ u.multiply? dimensionless = some u ∧
    u.divide? u = some dimensionless := by
  let u : CompoundUnit := ⟨[("a", ⟨1, 1⟩), ("b", ⟨1, 2⟩)]⟩
  let v : CompoundUnit := ⟨[("a", ⟨-1, 1⟩), ("b", ⟨1, 6⟩), ("c", ⟨2, 1⟩)]⟩
  let w : CompoundUnit := ⟨[("a", ⟨1, 1⟩), ("c", ⟨-2, 1⟩)]⟩
  have hu : u.Canonical := by decide
  have hv : v.Canonical := by decide
  have hw : w.Canonical := by decide
  have hrange : u.InRange := by decide
  have hleft : (do (← u.multiply? v).multiply? w) =
      some ⟨[("a", ⟨1, 1⟩), ("b", ⟨2, 3⟩)]⟩ := by decide
  have hright : (do u.multiply? (← v.multiply? w)) =
      some ⟨[("a", ⟨1, 1⟩), ("b", ⟨2, 3⟩)]⟩ := by decide
  have hafter : (do (← u.multiply? v).scale? ⟨1, 2⟩) =
      some ⟨[("b", ⟨1, 3⟩), ("c", ⟨1, 1⟩)]⟩ := by decide
  have hbefore : (do (← u.scale? ⟨1, 2⟩).multiply? (← v.scale? ⟨1, 2⟩)) =
      some ⟨[("b", ⟨1, 3⟩), ("c", ⟨1, 1⟩)]⟩ := by decide
  obtain ⟨hassoc, -, hscale, -, -, -, hcomm, hneutral, hself⟩ :=
    rational_vector_space (r := ⟨1, 2⟩) (s := .one) hu hv hw hrange (by decide) (by decide) 0.5
  exact ⟨u, v, w, _, _, _, _, hu, hv, hw, hrange, hleft, hright, hassoc _ _ hleft hright, hafter,
    hbefore, hscale _ _ hafter hbefore, hcomm, hneutral, hself⟩

/-- One side may leave the range on the way where the other does not. -/
example :
    let u := base "m"
    let v := ofPowers [("m", 9223372036854775807)]
    let w := ofPowers [("m", -1)]
    (do (← u.multiply? v).multiply? w) = none ∧ (do u.multiply? (← v.multiply? w)) = some v := by
  decide

end CompoundUnit

end QuantityCalculus
