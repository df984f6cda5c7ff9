import QuantityCalculus.CompoundUnit.Basic
import Mathlib.Data.Int.GCD

/-!
Compound units whose exponents are in lowest terms. Such units are the same unit only when they are
equal.
-/
namespace QuantityCalculus

/-- In lowest terms, with a positive denominator. -/
def Exponent.Reduced (e : Exponent) : Prop :=
  0 < e.denominator ∧ Int.gcd e.numerator e.denominator = 1

instance (e : Exponent) : Decidable e.Reduced :=
  inferInstanceAs (Decidable (_ ∧ _))

namespace Exponent

variable {e f : Exponent}

theorem denominator_dvd (he : e.Reduced) (h : e.sameValue f = true) :
    e.denominator ∣ f.denominator := by
  have hcross : e.numerator * f.denominator = f.numerator * e.denominator := of_decide_eq_true h
  have hdvd : e.denominator ∣ e.numerator * f.denominator := hcross ▸ Int.dvd_mul_left _ _
  exact Int.dvd_of_dvd_mul_right_of_gcd_one hdvd (Int.gcd_comm _ _ ▸ he.2)

theorem eq_of_sameValue (he : e.Reduced) (hf : f.Reduced) (h : e.sameValue f = true) : e = f := by
  have hcross : e.numerator * f.denominator = f.numerator * e.denominator := of_decide_eq_true h
  have hback : f.sameValue e = true := decide_eq_true hcross.symm
  have hd : e.denominator = f.denominator :=
    Int.dvd_antisymm (Int.le_of_lt he.1) (Int.le_of_lt hf.1) (denominator_dvd he h)
      (denominator_dvd hf hback)
  have hn : e.numerator = f.numerator := by
    rw [hd] at hcross
    exact Int.eq_of_mul_eq_mul_right (Int.ne_of_gt hf.1) hcross
  cases e
  cases f
  simp_all

end Exponent

namespace CompoundUnit

def Reduced (u : CompoundUnit) : Prop :=
  ∀ entry ∈ u.entries, entry.2.Reduced

instance (u : CompoundUnit) : Decidable u.Reduced :=
  inferInstanceAs (Decidable (∀ entry ∈ u.entries, entry.2.Reduced))

theorem eq_of_sameEntries {entries others : List (String × Exponent)}
    (he : ∀ entry ∈ entries, entry.2.Reduced) (ho : ∀ entry ∈ others, entry.2.Reduced)
    (h : sameEntries entries others = true) : entries = others := by
  induction entries generalizing others with
  | nil =>
    cases others with
    | nil => rfl
    | cons => cases h
  | cons first rest ih =>
    cases others with
    | nil => cases h
    | cons first' rest' =>
      obtain ⟨s, e⟩ := first
      obtain ⟨t, f⟩ := first'
      simp only [sameEntries, Bool.and_eq_true, beq_iff_eq] at h
      obtain ⟨⟨rfl, hef⟩, hrest⟩ := h
      have hfirst : e.Reduced := he (s, e) List.mem_cons_self
      have hother : f.Reduced := ho (s, f) List.mem_cons_self
      obtain rfl : e = f := Exponent.eq_of_sameValue hfirst hother hef
      have hrest : rest = rest' := by
        apply ih ?_ ?_ hrest
        · intro entry hm
          exact he entry (List.mem_cons_of_mem _ hm)
        · intro entry hm
          exact ho entry (List.mem_cons_of_mem _ hm)
      rw [hrest]

theorem eq_of_sameUnit {u v : CompoundUnit} (hu : u.Reduced) (hv : v.Reduced)
    (h : u.sameUnit v = true) : u = v := by
  cases u
  cases v
  exact congrArg mk (eq_of_sameEntries hu hv h)

end CompoundUnit

end QuantityCalculus
