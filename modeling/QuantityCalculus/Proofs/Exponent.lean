import QuantityCalculus.CompoundUnit.Algebra
import QuantityCalculus.Proofs.CompoundUnit.Reduced

/-!
Exponents in lowest terms. Every operation leaves its result so, whether or not the fractions that
it is given are, as none of them forms a fraction over zero.
-/
namespace QuantityCalculus.Exponent

variable {e f r : Exponent}

/-- A fraction in the first place, in lowest terms or not. -/
def Proper (e : Exponent) : Prop :=
  e.denominator ≠ 0

instance (e : Exponent) : Decidable e.Proper :=
  inferInstanceAs (Decidable (e.denominator ≠ 0))

/-- Both parts fit in a word. -/
def InRange (e : Exponent) : Prop :=
  InWord e.numerator ∧ InWord e.denominator

instance (e : Exponent) : Decidable e.InRange :=
  inferInstanceAs (Decidable (_ ∧ _))

theorem Reduced.proper (he : e.Reduced) : e.Proper :=
  Int.ne_of_gt he.1

theorem reduced_ofInt (n : Int) : (ofInt n).Reduced :=
  ⟨Int.zero_lt_one, Int.gcd_one⟩

theorem reduced_reduce (n : Int) {d : Int} (h : d ≠ 0) : (reduce n d).Reduced := by
  have hg : 0 < Int.gcd n d := Int.gcd_pos_of_ne_zero_right n h
  have hcoprime := Int.gcd_ediv_gcd_ediv_gcd hg
  unfold reduce
  split
  · rename_i hd
    have hneg : d / Int.gcd n d < 0 := Int.ediv_neg_of_neg_of_pos hd (Int.natCast_pos.2 hg)
    exact ⟨Int.neg_pos_of_neg hneg, by simpa only [Int.gcd_neg, Int.neg_gcd] using hcoprime⟩
  · rename_i hd
    have hpos : 0 < d := by omega
    have hdvd : (Int.gcd n d : Int) ∣ d := Int.gcd_dvd_right n d
    exact ⟨Int.ediv_pos_of_pos_of_dvd hpos (Int.natCast_nonneg _) hdvd, hcoprime⟩

theorem reduce?_eq_some_iff {n d : Int} :
    reduce? n d = some r ↔ (reduce n d).InRange ∧ reduce n d = r := by
  simp only [reduce?, Option.bind_eq_bind, Option.bind_eq_some_iff, inWord?_eq_some_iff]
  constructor
  · rintro ⟨_, ⟨hn, rfl⟩, _, ⟨hd, rfl⟩, h⟩
    exact ⟨⟨hn, hd⟩, Option.some.inj h⟩
  · rintro ⟨⟨hn, hd⟩, rfl⟩
    exact ⟨_, ⟨hn, rfl⟩, _, ⟨hd, rfl⟩, rfl⟩

theorem reduced_of_reduce? {n d : Int} (hd : d ≠ 0) (h : reduce? n d = some r) : r.Reduced := by
  obtain ⟨-, rfl⟩ := reduce?_eq_some_iff.1 h
  exact reduced_reduce n hd

theorem inRange_of_reduce? {n d : Int} (h : reduce? n d = some r) : r.InRange := by
  obtain ⟨hrange, rfl⟩ := reduce?_eq_some_iff.1 h
  exact hrange

theorem reduced_of_overCommon? {op : Int → Int → Int} (he : e.Proper) (hf : f.Proper)
    (h : overCommon? op e f = some r) : r.Reduced := by
  simp only [overCommon?, Option.bind_eq_bind, Option.bind_eq_some_iff, inWord?_eq_some_iff] at h
  obtain ⟨common, ⟨-, hcommon⟩, -, -, -, -, n, -, h⟩ := h
  refine reduced_of_reduce? ?_ h
  have hleft := mt
    (Int.eq_zero_of_ediv_eq_zero (Int.gcd_dvd_left e.denominator f.denominator)) he
  exact hcommon ▸ Int.mul_ne_zero hleft hf

theorem reduced_of_mul? (he : e.Proper) (hf : f.Proper) (h : e.mul? f = some r) : r.Reduced := by
  simp only [mul?, Option.bind_eq_bind, Option.bind_eq_some_iff, inWord?_eq_some_iff] at h
  obtain ⟨n, -, d, ⟨-, hd⟩, h⟩ := h
  refine reduced_of_reduce? ?_ h
  have hleft := mt
    (Int.eq_zero_of_ediv_eq_zero (Int.gcd_dvd_left e.denominator f.numerator)) he
  have hright := mt
    (Int.eq_zero_of_ediv_eq_zero (Int.gcd_dvd_right e.numerator f.denominator)) hf
  exact hd ▸ Int.mul_ne_zero hleft hright

theorem denominator_of_quotient? {n d : Int} (he : e.Proper) (hf : f.numerator ≠ 0)
    (h : e.quotient? f = some (n, d)) : d ≠ 0 := by
  unfold quotient? at h
  split at h
  · obtain ⟨-, rfl⟩ := Prod.mk.inj (Option.some.inj h)
    exact hf
  · split at h
    · obtain ⟨-, rfl⟩ := Prod.mk.inj (Option.some.inj h)
      exact he
    · simp only [Option.bind_eq_bind, Option.bind_eq_some_iff, inWord?_eq_some_iff] at h
      obtain ⟨n', -, d', ⟨-, hd⟩, h⟩ := h
      obtain ⟨-, rfl⟩ := Prod.mk.inj (Option.some.inj h)
      have hleft := mt (Int.eq_zero_of_ediv_eq_zero
        (Int.gcd_dvd_left e.denominator f.denominator)) he
      have hright := mt (Int.eq_zero_of_ediv_eq_zero
        (Int.gcd_dvd_right e.numerator f.numerator)) hf
      exact hd ▸ Int.mul_ne_zero hleft hright

theorem reduced_of_div? (he : e.Proper) (h : e.div? f = some r) : r.Reduced := by
  unfold div? at h
  split at h
  · cases h
  · rename_i hf
    have hf : f.numerator ≠ 0 := by simpa [isZero] using hf
    obtain ⟨⟨n, d⟩, hq, h⟩ := Option.bind_eq_some_iff.1 h
    exact reduced_of_reduce? (denominator_of_quotient? he hf hq) h

/-- The last step of every operation checks its result. -/
theorem inRange_of_overCommon? {op : Int → Int → Int} (h : overCommon? op e f = some r) :
    r.InRange := by
  simp only [overCommon?, Option.bind_eq_bind, Option.bind_eq_some_iff] at h
  obtain ⟨_, -, _, -, _, -, _, -, h⟩ := h
  exact inRange_of_reduce? h

theorem inRange_of_mul? (h : e.mul? f = some r) : r.InRange := by
  simp only [mul?, Option.bind_eq_bind, Option.bind_eq_some_iff] at h
  obtain ⟨_, -, _, -, h⟩ := h
  exact inRange_of_reduce? h

theorem inRange_of_div? (h : e.div? f = some r) : r.InRange := by
  unfold div? at h
  split at h
  · cases h
  · obtain ⟨_, -, h⟩ := Option.bind_eq_some_iff.1 h
    exact inRange_of_reduce? h

/-- A double only ever stands for a fraction over a positive integer. -/
theorem reduced_of_ofFloat? {x : Float} (h : ofFloat? x = some r) : r.Reduced := by
  unfold ofFloat? at h
  split at h
  · obtain ⟨d, -, hd⟩ := List.exists_of_findSome?_eq_some h
    simp only [overDenominator?] at hd
    split at hd
    · obtain ⟨n, -, rfl⟩ := Option.map_eq_some_iff.1 hd
      exact reduced_reduce n (by omega)
    · cases hd
  · cases h

end QuantityCalculus.Exponent
