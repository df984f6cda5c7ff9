import QuantityCalculus.Proofs.CompoundUnit.Overflow
import Mathlib.Tactic.LinearCombination

/-!
Properties of units that the operations on units keep. Of units without fractions over zero only
canonical units with exponents in range are formed.
-/
namespace QuantityCalculus

namespace Exponent

variable {e f g r : Exponent}

theorem Proper.sameValue_trans (hf : f.Proper) (h : e.sameValue f = true)
    (h' : f.sameValue g = true) : e.sameValue g = true := by
  have hef : e.numerator * f.denominator = f.numerator * e.denominator := of_decide_eq_true h
  have hfg : f.numerator * g.denominator = g.numerator * f.denominator := of_decide_eq_true h'
  have hcross : f.denominator * (e.numerator * g.denominator) =
      f.denominator * (g.numerator * e.denominator) := by
    linear_combination g.denominator * hef + e.denominator * hfg
  exact decide_eq_true (mul_left_cancel₀ hf hcross)

end Exponent

namespace CompoundUnit

variable {u v w : CompoundUnit} {entry : String × Exponent} {P : CompoundUnit → Prop}

theorem sameEntries_trans {entries others third : List (String × Exponent)}
    (hp : ∀ entry ∈ others, entry.2.Proper) (h : sameEntries entries others = true)
    (h' : sameEntries others third = true) : sameEntries entries third = true := by
  induction others generalizing entries third with
  | nil =>
    cases entries with
    | nil => exact h'
    | cons => cases h
  | cons second rest ih =>
    cases entries with
    | nil => cases h
    | cons first =>
      cases third with
      | nil => cases h'
      | cons =>
        simp only [sameEntries, Bool.and_eq_true, beq_iff_eq] at h h' ⊢
        obtain ⟨⟨hs, hvalue⟩, hrest⟩ := h
        obtain ⟨⟨hs', hvalue'⟩, hrest'⟩ := h'
        have hsecond : second.2.Proper := hp second List.mem_cons_self
        refine ⟨⟨hs.trans hs', hsecond.sameValue_trans hvalue hvalue'⟩, ?_⟩
        exact ih (fun entry hm => hp entry (List.mem_cons_of_mem _ hm)) hrest hrest'

/-- Units are compared exponent by exponent, which is no equivalence with fractions over zero. -/
theorem Proper.sameUnit_trans (hv : v.Proper) (h : u.sameUnit v = true)
    (h' : v.sameUnit w = true) : u.sameUnit w = true :=
  sameEntries_trans hv h h'

theorem mem_tabulate? {f : String → Option Exponent} {symbols : List String}
    (h : tabulate? f symbols u = some w) (hm : entry ∈ w.entries) :
    entry ∈ u.entries ∨ f entry.1 = some entry.2 := by
  induction symbols generalizing u with
  | nil =>
    obtain rfl := Option.some.inj h
    exact .inl hm
  | cons symbol rest ih =>
    rw [tabulate?, Option.bind_eq_bind, Option.bind_eq_some_iff] at h
    obtain ⟨e, he, h⟩ := h
    rcases ih h with hset | hvalue
    · rcases mem_set hset with rfl | hu
      · exact .inr he
      · exact .inl hu
    · exact .inr hvalue

/-- A canonical unit whose exponents are stored in words. -/
structure Sound (u : CompoundUnit) : Prop where
  canonical : u.Canonical
  inRange : u.InRange

instance (u : CompoundUnit) : Decidable u.Sound :=
  decidable_of_iff (u.Canonical ∧ u.InRange)
    ⟨fun h => ⟨h.1, h.2⟩, fun h => ⟨h.canonical, h.inRange⟩⟩

theorem Sound.proper (h : u.Sound) : u.Proper :=
  h.canonical.proper

theorem Sound.representable (h : u.Sound) (symbol : String) : Representable (u.degree symbol) :=
  (h.canonical.reduced.exponent symbol).representable_iff.2 (h.inRange.exponent symbol)

section Results

/-- A unit is sound if the exponents that it is made of are, whatever they were made from. -/
theorem sound_tabulate? {f : String → Option Exponent} {symbols : List String}
    (hf : ∀ symbol e, f symbol = some e → e.Reduced ∧ e.InRange)
    (h : tabulate? f symbols dimensionless = some w) : w.Sound where
  canonical := canonical_dimensionless.tabulate? (fun symbol e he => (hf symbol e he).1) h
  inRange entry hm := by
    have hvalue := (mem_tabulate? h hm).resolve_left List.not_mem_nil
    exact (hf entry.1 entry.2 hvalue).2

theorem Proper.sound_combine? {op : Int → Int → Int} (hu : u.Proper) (hv : v.Proper)
    (h : u.combine? v (Exponent.overCommon? op) = some w) : w.Sound := by
  refine sound_tabulate? ?_ h
  intro symbol e he
  exact ⟨Exponent.reduced_of_overCommon? (hu.exponent symbol) (hv.exponent symbol) he,
    Exponent.inRange_of_overCommon? he⟩

theorem Proper.sound_scale? {factor : Exponent} (hu : u.Proper) (hf : factor.Proper)
    (h : u.scale? factor = some w) : w.Sound := by
  refine sound_tabulate? ?_ h
  intro symbol e he
  exact ⟨Exponent.reduced_of_mul? (hu.exponent symbol) hf he, Exponent.inRange_of_mul? he⟩

theorem Proper.sound_root? {index : Nat} (hu : u.Proper) (h : u.root? index = some w) :
    w.Sound := by
  refine sound_tabulate? ?_ h
  intro symbol e he
  exact ⟨Exponent.reduced_of_div? (hu.exponent symbol) he, Exponent.inRange_of_div? he⟩

end Results

/-- The units that are formed from units with the property have it as well. -/
structure Closed (P : CompoundUnit → Prop) : Prop where
  dimensionless : P dimensionless
  multiply {u v w : CompoundUnit} (hu : P u) (hv : P v) (h : u.multiply? v = some w) : P w
  divide {u v w : CompoundUnit} (hu : P u) (hv : P v) (h : u.divide? v = some w) : P w
  scale {u w : CompoundUnit} {factor : Exponent} (hu : P u) (hf : factor.Reduced)
    (h : u.scale? factor = some w) : P w
  root {u w : CompoundUnit} {index : Nat} (hu : P u) (h : u.root? index = some w) : P w

theorem Closed.power (hP : Closed P) {x : Float} (hu : P u) (h : u.power? x = some w) : P w := by
  unfold power? at h
  split at h
  · exact Option.some.inj h ▸ hP.dimensionless
  · rw [Option.bind_eq_bind, Option.bind_eq_some_iff] at h
    obtain ⟨factor, hf, h⟩ := h
    exact hP.scale hu (Exponent.reduced_of_ofFloat? hf) h

/-- The operations keep a property that rules out fractions over zero and that sound units have. -/
theorem closed_of_sound (hproper : ∀ u, P u → u.Proper) (hsound : ∀ u, Sound u → P u) :
    Closed P where
  dimensionless := hsound _ ⟨canonical_dimensionless, by decide⟩
  multiply hu hv h := hsound _ ((hproper _ hu).sound_combine? (hproper _ hv) h)
  divide hu hv h := hsound _ ((hproper _ hu).sound_combine? (hproper _ hv) h)
  scale hu hf h := hsound _ ((hproper _ hu).sound_scale? hf.proper h)
  root hu h := hsound _ ((hproper _ hu).sound_root? h)

theorem closed_proper : Closed Proper :=
  closed_of_sound (fun _ hu => hu) fun _ hu => hu.proper

theorem closed_sound : Closed Sound :=
  closed_of_sound (fun _ hu => hu.proper) fun _ hu => hu

end CompoundUnit

end QuantityCalculus
