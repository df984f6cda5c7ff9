import Mathlib.Algebra.Order.Field.Basic
import Mathlib.Data.Int.Cast.Field
import Mathlib.Data.Rat.Lemmas
import Mathlib.RingTheory.Coprime.Lemmas
import Mathlib.Tactic.FieldSimp
import QuantityCalculus.Proofs.Exponent

/-!
Exponents as rational numbers. An exponent in lowest terms is determined by its rational number.
Each operation is described by the rational number of its result and by the integers that have to
fit in a word for it: for sums and differences everything over the common denominator, for
products and quotients only the result.
-/
namespace QuantityCalculus

theorem InWord.of_mul {k n : Int} (hk : 0 < k) (h : InWord (k * n)) : InWord n := by
  obtain ⟨hlow, hhigh⟩ := h
  rcases le_total 0 n with hn | hn
  · have hle : n ≤ k * n := le_mul_of_one_le_left hn hk
    exact ⟨by omega, by omega⟩
  · have hle : k * n ≤ n := mul_le_of_one_le_left hn hk
    exact ⟨by omega, by omega⟩

/-- In lowest terms the number has a numerator and a denominator that fit in a word. -/
def Representable (q : ℚ) : Prop :=
  InWord q.num ∧ InWord q.den

instance (q : ℚ) : Decidable (Representable q) :=
  inferInstanceAs (Decidable (_ ∧ _))

theorem Representable.neg {q : ℚ} (h : Representable q) (hne : q.num ≠ -9223372036854775808) :
    Representable (-q) := by
  obtain ⟨⟨hlow, hhigh⟩, hden⟩ := h
  rw [Representable, Rat.neg_num, Rat.neg_den]
  exact ⟨⟨by omega, by omega⟩, hden⟩

namespace Exponent

variable {e f r : Exponent} {n d : Int}

/-- The rational number that the fraction stands for. -/
def ratio (e : Exponent) : ℚ :=
  e.numerator / e.denominator

theorem Proper.denominator_ne_zero (he : e.Proper) : (e.denominator : ℚ) ≠ 0 :=
  Int.cast_ne_zero.2 he

theorem Reduced.denominator_ne_zero (he : e.Reduced) : (e.denominator : ℚ) ≠ 0 :=
  he.proper.denominator_ne_zero

theorem ratio_ofInt (n : Int) : (ofInt n).ratio = n := by
  simp [ratio, ofInt]

theorem reduced_zero : zero.Reduced :=
  reduced_ofInt 0

theorem ratio_zero : zero.ratio = 0 :=
  (ratio_ofInt 0).trans Int.cast_zero

theorem Reduced.eq_of_ratio (he : e.Reduced) (hf : f.Reduced) (h : e.ratio = f.ratio) : e = f := by
  rw [ratio, ratio, div_eq_div_iff he.denominator_ne_zero hf.denominator_ne_zero] at h
  apply eq_of_sameValue he hf
  exact decide_eq_true (by exact_mod_cast h)

theorem Reduced.num_ratio (he : e.Reduced) : e.ratio.num = e.numerator :=
  Rat.num_div_eq_of_coprime he.1 he.2

theorem Reduced.den_ratio (he : e.Reduced) : (e.ratio.den : Int) = e.denominator :=
  Rat.den_div_eq_of_coprime he.1 he.2

theorem Reduced.representable_iff (he : e.Reduced) : Representable e.ratio ↔ e.InRange := by
  rw [Representable, InRange, he.num_ratio, he.den_ratio]

theorem ratio_eq_zero (h : e.isZero = true) : e.ratio = 0 := by
  have hn : e.numerator = 0 := of_decide_eq_true h
  rw [ratio, hn, Int.cast_zero, zero_div]

theorem isZero_iff_ratio (he : e.Proper) : e.isZero = true ↔ e.ratio = 0 := by
  rw [ratio, div_eq_zero_iff, or_iff_left he.denominator_ne_zero, Int.cast_eq_zero]
  exact decide_eq_true_iff

theorem Reduced.eq_zero (he : e.Reduced) (h : e.isZero = true) : e = zero :=
  he.eq_of_ratio reduced_zero ((ratio_eq_zero h).trans ratio_zero.symm)

section Reduce

theorem ratio_reduce (n : Int) (hd : d ≠ 0) : (reduce n d).ratio = n / d := by
  have hg : (Int.gcd n d : ℚ) ≠ 0 := Nat.cast_ne_zero.2 (Int.gcd_pos_of_ne_zero_right n hd).ne'
  have hn : ((n / Int.gcd n d : Int) : ℚ) = n / Int.gcd n d := by
    rw [Int.cast_div (Int.gcd_dvd_left n d) (by exact_mod_cast hg), Int.cast_natCast]
  have hd : ((d / Int.gcd n d : Int) : ℚ) = d / Int.gcd n d := by
    rw [Int.cast_div (Int.gcd_dvd_right n d) (by exact_mod_cast hg), Int.cast_natCast]
  unfold reduce
  split
  · rw [ratio, Int.cast_neg, Int.cast_neg, neg_div_neg_eq, hn, hd, div_div_div_cancel_right₀ hg]
  · rw [ratio, hn, hd, div_div_div_cancel_right₀ hg]

theorem reduce_eq (he : e.Reduced) (hd : d ≠ 0) (h : e.ratio = n / d) : reduce n d = e :=
  (reduced_reduce n hd).eq_of_ratio he (by rw [ratio_reduce n hd, h])

theorem Reduced.reduce_self (he : e.Reduced) : reduce e.numerator e.denominator = e :=
  reduce_eq he he.1.ne' rfl

theorem Reduced.reduce?_self (he : e.Reduced) (hrange : e.InRange) :
    reduce? e.numerator e.denominator = some e :=
  reduce?_eq_some_iff.2 ⟨he.reduce_self.symm ▸ hrange, he.reduce_self⟩

/-- Over a positive denominator nothing grows when a fraction is reduced. -/
theorem inRange_reduce (hn : InWord n) (hd : InWord d) (hpos : 0 < d) : (reduce n d).InRange := by
  have hg : 0 < (Int.gcd n d : Int) :=
    Int.natCast_pos.2 (Int.gcd_pos_of_ne_zero_right n hpos.ne')
  rw [reduce, if_neg hpos.not_gt]
  constructor
  · apply InWord.of_mul hg
    rwa [Int.mul_ediv_cancel' (Int.gcd_dvd_left n d)]
  · apply InWord.of_mul hg
    rwa [Int.mul_ediv_cancel' (Int.gcd_dvd_right n d)]

theorem ratio_of_reduce? (hd : d ≠ 0) (h : reduce? n d = some r) : r.ratio = n / d := by
  obtain ⟨-, rfl⟩ := reduce?_eq_some_iff.1 h
  exact ratio_reduce n hd

theorem reduce?_eq_none_iff (hd : d ≠ 0) :
    reduce? n d = none ↔ ¬ Representable ((n : ℚ) / d) := by
  rw [← ratio_reduce n hd, (reduced_reduce n hd).representable_iff]
  constructor
  · intro h hrange
    have hsome : reduce? n d = some (reduce n d) := reduce?_eq_some_iff.2 ⟨hrange, rfl⟩
    rw [h] at hsome
    cases hsome
  · intro h
    cases hr : reduce? n d with
    | none => rfl
    | some r => exact absurd (reduce?_eq_some_iff.1 hr).1 h

theorem denominator_reduce_dvd (n d : Int) : (reduce n d).denominator ∣ d := by
  have hdvd : d / Int.gcd n d ∣ d := Int.ediv_dvd_of_dvd (Int.gcd_dvd_right n d)
  unfold reduce
  split
  · exact Int.neg_dvd.2 hdvd
  · exact hdvd

end Reduce

section Sums

/-- The numerator of the fraction when it is written over `common`. -/
def numeratorOver (e : Exponent) (common : Int) : Int :=
  common / e.denominator * e.numerator

theorem Reduced.numeratorOver_denominator (he : e.Reduced) :
    e.numeratorOver e.denominator = e.numerator := by
  rw [numeratorOver, Int.ediv_self he.1.ne', one_mul]

/-- The fraction can be written over `common` with a numerator that fits in a word. -/
structure FitsOver (e : Exponent) (common : Int) : Prop where
  dvd : e.denominator ∣ common
  inWord : InWord (e.numeratorOver common)

theorem cast_numeratorOver {common : Int} (he : e.Proper) (h : e.denominator ∣ common) :
    (e.numeratorOver common : ℚ) = e.ratio * common := by
  rw [numeratorOver, ratio, Int.cast_mul, Int.cast_div h he.denominator_ne_zero]
  ring

theorem Proper.ratio_eq_over {common : Int} (he : e.Proper) (hne : common ≠ 0)
    (h : e.denominator ∣ common) : e.ratio = e.numeratorOver common / common := by
  rw [cast_numeratorOver he h, mul_div_cancel_right₀ _ (Int.cast_ne_zero.2 hne)]

theorem Reduced.eq_numeratorOver {common : Int} (he : e.Reduced) (hne : common ≠ 0)
    (h : e.denominator ∣ common) (hratio : e.ratio = n / common) : n = e.numeratorOver common := by
  rw [he.proper.ratio_eq_over hne h, div_left_inj' (Int.cast_ne_zero.2 hne)] at hratio
  exact (Int.cast_inj.1 hratio).symm

/-- A smaller common denominator needs a smaller numerator. -/
theorem FitsOver.of_dvd {common : Int} (h : e.FitsOver common) (hpos : 0 < common) (hd : 0 < d)
    (hdvd : d ∣ common) (he : e.denominator ∣ d) : e.FitsOver d := by
  obtain ⟨k, rfl⟩ := hdvd
  have hk : 0 < k := Int.pos_of_mul_pos_right hpos hd
  have hover : e.numeratorOver (d * k) = k * e.numeratorOver d := by
    rw [numeratorOver, numeratorOver, mul_comm d k, Int.mul_ediv_assoc k he, mul_assoc]
  exact ⟨he, .of_mul hk (hover ▸ h.inWord)⟩

/-- The common denominator of a sum or a difference. -/
def common (e f : Exponent) : Int :=
  Int.lcm e.denominator f.denominator

theorem dvd_common_left (e f : Exponent) : e.denominator ∣ common e f :=
  Int.dvd_lcm_left _ _

theorem dvd_common_right (e f : Exponent) : f.denominator ∣ common e f :=
  Int.dvd_lcm_right _ _

theorem common_pos (he : e.Reduced) (hf : f.Reduced) : 0 < common e f :=
  Int.natCast_pos.2 (Int.lcm_pos he.1.ne' hf.1.ne')

theorem common_self (he : e.Reduced) : common e e = e.denominator := by
  rw [common, Int.lcm_self, Int.natAbs_of_nonneg he.1.le]

theorem common_eq (he : e.Reduced) (hf : f.Reduced) :
    e.denominator / Int.gcd e.denominator f.denominator * f.denominator = common e f := by
  have hproduct : (Int.gcd e.denominator f.denominator : Int) * common e f =
      e.denominator * f.denominator := by
    rw [common, ← Nat.cast_mul, Int.gcd_mul_lcm, Nat.cast_mul, Int.natAbs_of_nonneg he.1.le,
      Int.natAbs_of_nonneg hf.1.le]
  have hg : (Int.gcd e.denominator f.denominator : Int) ≠ 0 :=
    Int.natCast_ne_zero.2 (Int.gcd_pos_of_ne_zero_left _ he.1.ne').ne'
  apply mul_left_cancel₀ hg
  rw [hproduct, ← mul_assoc, Int.mul_ediv_cancel' (Int.gcd_dvd_left _ _)]

/-- Everything that is formed on the way to the result `r` fits in a word. -/
structure FitTogether (e f r : Exponent) : Prop where
  common : InWord (common e f)
  left : e.FitsOver (Exponent.common e f)
  right : f.FitsOver (Exponent.common e f)
  result : r.FitsOver (Exponent.common e f)

/-- The steps in the order of the definition, each with its check. -/
theorem overCommon?_steps {op : Int → Int → Int} (he : e.Reduced) (hf : f.Reduced) :
    overCommon? op e f = some r ↔
      InWord (common e f) ∧ InWord (e.numeratorOver (common e f)) ∧
        InWord (f.numeratorOver (common e f)) ∧
        ∃ n, n = op (e.numeratorOver (common e f)) (f.numeratorOver (common e f)) ∧ InWord n ∧
          reduce n (common e f) = r := by
  simp only [overCommon?, common_eq he hf, Option.bind_eq_bind, Option.bind_eq_some_iff,
    inWord?_eq_some_iff, reduce?_eq_some_iff]
  constructor
  · rintro ⟨_, ⟨hcommon, rfl⟩, _, ⟨hleft, rfl⟩, _, ⟨hright, rfl⟩, n, ⟨hn, rfl⟩, -, h⟩
    exact ⟨hcommon, hleft, hright, _, rfl, hn, h⟩
  · rintro ⟨hcommon, hleft, hright, _, rfl, hn, rfl⟩
    exact ⟨_, ⟨hcommon, rfl⟩, _, ⟨hleft, rfl⟩, _, ⟨hright, rfl⟩, _, ⟨hn, rfl⟩,
      inRange_reduce hn hcommon (common_pos he hf), rfl⟩

theorem overCommon?_eq_some_iff {op : Int → Int → Int} {opRat : ℚ → ℚ → ℚ}
    (hop : ∀ m n d : Int, (op m n : ℚ) / d = opRat (m / d) (n / d)) (he : e.Reduced)
    (hf : f.Reduced) :
    overCommon? op e f = some r ↔
      r.Reduced ∧ r.ratio = opRat e.ratio f.ratio ∧ FitTogether e f r := by
  have hne : common e f ≠ 0 := (common_pos he hf).ne'
  have hleft := dvd_common_left e f
  have hright := dvd_common_right e f
  have hratio := hop (e.numeratorOver (common e f)) (f.numeratorOver (common e f)) (common e f)
  rw [← he.proper.ratio_eq_over hne hleft, ← hf.proper.ratio_eq_over hne hright] at hratio
  rw [overCommon?_steps he hf]
  constructor
  · rintro ⟨hcommon, hl, hr, n, hresult, hn, rfl⟩
    rw [← hresult] at hratio
    have hreduced := reduced_reduce n hne
    have hvalue := ratio_reduce n hne
    have hdvd := denominator_reduce_dvd n (common e f)
    rw [hreduced.eq_numeratorOver hne hdvd hvalue] at hn
    exact ⟨hreduced, hvalue.trans hratio, hcommon, ⟨hleft, hl⟩, ⟨hright, hr⟩, ⟨hdvd, hn⟩⟩
  · rintro ⟨hr, h, fit⟩
    have hvalue := hr.eq_numeratorOver hne fit.result.dvd (h.trans hratio.symm)
    exact ⟨fit.common, fit.left.inWord, fit.right.inWord, _, rfl, hvalue ▸ fit.result.inWord,
      reduce_eq hr hne (h.trans hratio.symm)⟩

/-- The exact result, for fractions in lowest terms or not. -/
theorem ratio_of_overCommon? {op : Int → Int → Int} {opRat : ℚ → ℚ → ℚ}
    (hop : ∀ m n d : Int, (op m n : ℚ) / d = opRat (m / d) (n / d)) (he : e.Proper)
    (hf : f.Proper) (h : overCommon? op e f = some r) : r.ratio = opRat e.ratio f.ratio := by
  simp only [overCommon?, Option.bind_eq_bind, Option.bind_eq_some_iff, inWord?_eq_some_iff] at h
  obtain ⟨common, ⟨-, hcommon⟩, _, ⟨-, rfl⟩, _, ⟨-, rfl⟩, _, ⟨-, rfl⟩, h⟩ := h
  have hgcd := Int.gcd_dvd_left e.denominator f.denominator
  have hne : common ≠ 0 :=
    hcommon ▸ mul_ne_zero (mt (Int.eq_zero_of_ediv_eq_zero hgcd) he) hf
  have hleft : e.denominator ∣ common := by
    rw [← hcommon, ← Int.mul_ediv_assoc' _ hgcd, Int.mul_ediv_assoc _ (Int.gcd_dvd_right _ _)]
    exact Int.dvd_mul_right _ _
  have hright : f.denominator ∣ common := hcommon ▸ Int.dvd_mul_left _ _
  change reduce? (op (e.numeratorOver common) (f.numeratorOver common)) common = some r at h
  rw [ratio_of_reduce? hne h, hop, ← he.ratio_eq_over hne hleft, ← hf.ratio_eq_over hne hright]

/-- The operands may change places along with those of the operation. -/
theorem overCommon?_swap (op : Int → Int → Int) (e f : Exponent) :
    overCommon? op e f = overCommon? (fun m n => op n m) f e := by
  have hcommon : e.denominator / Int.gcd e.denominator f.denominator * f.denominator =
      f.denominator / Int.gcd f.denominator e.denominator * e.denominator := by
    rw [← Int.mul_ediv_assoc' _ (Int.gcd_dvd_left _ _),
      ← Int.mul_ediv_assoc' _ (Int.gcd_dvd_left _ _), Int.gcd_comm, mul_comm]
  simp only [overCommon?, hcommon, Option.bind_eq_bind]
  apply congrArg
  funext common
  exact Option.bind_comm _ _

theorem add?_comm (e f : Exponent) : e.add? f = f.add? e := by
  rw [add?, add?, overCommon?_swap]
  simp only [add_comm]

/-- Beside zero a fraction is its own form over the common denominator, so that nothing but the
combined numerator or its reduced form can leave the range. -/
theorem overCommon?_zero_left (op : Int → Int → Int) (he : e.Proper) (hrange : e.InRange) :
    overCommon? op zero e = (do reduce? (← inWord? (op 0 e.numerator)) e.denominator) := by
  obtain ⟨hnumerator, hdenominator⟩ := hrange
  have hzero : InWord 0 := by decide
  have hword {n : Int} (hn : InWord n) : inWord? n = some n := if_pos hn
  simp only [overCommon?, zero, ofInt, Int.one_gcd, Nat.cast_one, Int.ediv_one, one_mul, mul_zero,
    Int.ediv_self he, hword hzero, hword hnumerator, hword hdenominator, Option.bind_eq_bind,
    Option.bind_some]

theorem zero_add? (he : e.Proper) (hrange : e.InRange) :
    zero.add? e = reduce? e.numerator e.denominator := by
  rw [add?, overCommon?_zero_left _ he hrange, zero_add, inWord?, if_pos hrange.1]
  rfl

theorem zero_add?_eq_none_iff (he : e.Proper) (hrange : e.InRange) :
    zero.add? e = none ↔ ¬ Representable e.ratio := by
  rw [zero_add? he hrange, reduce?_eq_none_iff he, ratio]

theorem zero_sub?_of_least (he : e.Proper) (hrange : e.InRange)
    (h : e.numerator = -9223372036854775808) : zero.sub? e = none := by
  have hword : inWord? (0 - e.numerator) = none := by
    rw [inWord?_eq_none_iff, InWord]
    omega
  rw [sub?, overCommon?_zero_left _ he hrange, hword]
  rfl

/-- Nothing in a word but the least integer itself is the least integer when it is reduced. -/
theorem num_ratio_ne_least (he : e.Proper) (hrange : e.InRange)
    (hne : e.numerator ≠ -9223372036854775808) : e.ratio.num ≠ -9223372036854775808 := by
  have hdvd : e.ratio.num ∣ e.numerator := by
    rw [ratio, ← Rat.divInt_eq_div]
    exact Rat.num_dvd _ he
  intro hnum
  have hzero : e.numerator = 0 := by
    obtain ⟨hlow, hhigh⟩ := hrange.1
    obtain ⟨k, hk⟩ := hdvd
    rw [hnum] at hk
    omega
  rw [ratio, hzero, Int.cast_zero, zero_div, Rat.num_zero] at hnum
  omega

/-- Of the fractions that can be reduced only those with the least numerator have no negative. -/
theorem zero_sub?_eq_none_iff (he : e.Proper) (hrange : e.InRange) (hr : Representable e.ratio) :
    zero.sub? e = none ↔ e.numerator = -9223372036854775808 := by
  refine ⟨?_, zero_sub?_of_least he hrange⟩
  intro h
  by_contra hne
  have hword : InWord (0 - e.numerator) := by
    obtain ⟨hlow, hhigh⟩ := hrange.1
    constructor <;> omega
  have hneg : ((0 - e.numerator : Int) : ℚ) / e.denominator = -e.ratio := by
    rw [ratio, zero_sub, Int.cast_neg, neg_div]
  rw [sub?, overCommon?_zero_left _ he hrange, inWord?, if_pos hword, Option.bind_eq_bind,
    Option.bind_some] at h
  have hnone := (reduce?_eq_none_iff he).1 h
  rw [hneg] at hnone
  exact hnone (hr.neg (num_ratio_ne_least he hrange hne))

theorem reduce?_one (n : Int) : (do reduce? (← inWord? n) 1) = (inWord? n).map ofInt := by
  have hone : InWord 1 := by decide
  rw [Option.bind_eq_bind]
  cases h : inWord? n with
  | none => rw [Option.bind_none, Option.map_none]
  | some k =>
    obtain ⟨hn, rfl⟩ := (inWord?_eq_some_iff n k).1 h
    rw [Option.bind_some, Option.map_some]
    exact (reduced_ofInt n).reduce?_self ⟨hn, hone⟩

/-- Between integers nothing but the result can leave the range. -/
theorem overCommon?_ofInt {op : Int → Int → Int} {m n : Int} (hm : InWord m) (hn : InWord n) :
    overCommon? op (ofInt m) (ofInt n) = (inWord? (op m n)).map ofInt := by
  have hcommon : (1 : Int) / Int.gcd 1 1 * 1 = 1 := by decide
  have hone : inWord? 1 = some 1 := by decide
  have hword {n : Int} (hn : InWord n) : inWord? n = some n := if_pos hn
  rw [← reduce?_one]
  simp only [overCommon?, ofInt, hcommon, Int.ediv_one, Option.bind_eq_bind]
  rw [hone, Option.bind_some, one_mul, one_mul, hword hm, hword hn, Option.bind_some,
    Option.bind_some]

theorem cast_add_div (m n d : Int) : ((m + n : Int) : ℚ) / d = m / d + n / d := by
  rw [Int.cast_add, add_div]

theorem cast_sub_div (m n d : Int) : ((m - n : Int) : ℚ) / d = m / d - n / d := by
  rw [Int.cast_sub, sub_div]

theorem ratio_of_add? (he : e.Proper) (hf : f.Proper) (h : e.add? f = some r) :
    r.ratio = e.ratio + f.ratio :=
  ratio_of_overCommon? cast_add_div he hf h

theorem ratio_of_sub? (he : e.Proper) (hf : f.Proper) (h : e.sub? f = some r) :
    r.ratio = e.ratio - f.ratio :=
  ratio_of_overCommon? cast_sub_div he hf h

theorem add?_eq_some_iff (he : e.Reduced) (hf : f.Reduced) :
    e.add? f = some r ↔ r.Reduced ∧ r.ratio = e.ratio + f.ratio ∧ FitTogether e f r :=
  overCommon?_eq_some_iff cast_add_div he hf

theorem sub?_eq_some_iff (he : e.Reduced) (hf : f.Reduced) :
    e.sub? f = some r ↔ r.Reduced ∧ r.ratio = e.ratio - f.ratio ∧ FitTogether e f r :=
  overCommon?_eq_some_iff cast_sub_div he hf

end Sums

section Products

/-- The product with the factors divided out that the fractions have in common crosswise. -/
def crossed (e f : Exponent) : Exponent :=
  ⟨e.numerator / Int.gcd e.numerator f.denominator *
      (f.numerator / Int.gcd e.denominator f.numerator),
    e.denominator / Int.gcd e.denominator f.numerator *
      (f.denominator / Int.gcd e.numerator f.denominator)⟩

theorem reduced_crossed (he : e.Reduced) (hf : f.Reduced) : (crossed e f).Reduced := by
  have hg : 0 < Int.gcd e.numerator f.denominator := Int.gcd_pos_of_ne_zero_right _ hf.1.ne'
  have hh : 0 < Int.gcd e.denominator f.numerator := Int.gcd_pos_of_ne_zero_left _ he.1.ne'
  have hpos : 0 < (crossed e f).denominator := by
    apply mul_pos
    · exact Int.ediv_pos_of_pos_of_dvd he.1 (Int.natCast_nonneg _) (Int.gcd_dvd_left _ _)
    · exact Int.ediv_pos_of_pos_of_dvd hf.1 (Int.natCast_nonneg _) (Int.gcd_dvd_right _ _)
  refine ⟨hpos, Int.isCoprime_iff_gcd_eq_one.1 ?_⟩
  have hen := Int.ediv_dvd_of_dvd (Int.gcd_dvd_left e.numerator f.denominator)
  have hed := Int.ediv_dvd_of_dvd (Int.gcd_dvd_left e.denominator f.numerator)
  have hfn := Int.ediv_dvd_of_dvd (Int.gcd_dvd_right e.denominator f.numerator)
  have hfd := Int.ediv_dvd_of_dvd (Int.gcd_dvd_right e.numerator f.denominator)
  have hee := (Int.isCoprime_iff_gcd_eq_one.2 he.2).of_isCoprime_of_dvd_left hen
  have hff := (Int.isCoprime_iff_gcd_eq_one.2 hf.2).of_isCoprime_of_dvd_left hfn
  have hef := Int.isCoprime_iff_gcd_eq_one.2 (Int.gcd_ediv_gcd_ediv_gcd hg)
  have hfe := Int.isCoprime_iff_gcd_eq_one.2 (Int.gcd_ediv_gcd_ediv_gcd hh)
  exact (((hee.of_isCoprime_of_dvd_right hed).mul_right hef)).mul_left
    (hfe.symm.mul_right (hff.of_isCoprime_of_dvd_right hfd))

theorem proper_crossed (he : e.Proper) (hf : f.Proper) : (crossed e f).Proper :=
  mul_ne_zero (mt (Int.eq_zero_of_ediv_eq_zero (Int.gcd_dvd_left _ _)) he)
    (mt (Int.eq_zero_of_ediv_eq_zero (Int.gcd_dvd_right _ _)) hf)

theorem ratio_crossed (he : e.Proper) (hf : f.Proper) :
    (crossed e f).ratio = e.ratio * f.ratio := by
  have hg : (Int.gcd e.numerator f.denominator : Int) ≠ 0 :=
    Int.natCast_ne_zero.2 (Int.gcd_pos_of_ne_zero_right _ hf).ne'
  have hh : (Int.gcd e.denominator f.numerator : Int) ≠ 0 :=
    Int.natCast_ne_zero.2 (Int.gcd_pos_of_ne_zero_left _ he).ne'
  have hgRat := Int.cast_ne_zero (α := ℚ).2 hg
  have hhRat := Int.cast_ne_zero (α := ℚ).2 hh
  simp only [ratio, crossed, Int.cast_mul, Int.cast_div (Int.gcd_dvd_left _ _) hgRat,
    Int.cast_div (Int.gcd_dvd_right _ _) hgRat, Int.cast_div (Int.gcd_dvd_left _ _) hhRat,
    Int.cast_div (Int.gcd_dvd_right _ _) hhRat]
  field_simp

/-- A product is formed in lowest terms, so that only its own parts have to fit. -/
theorem mul?_eq_some_iff (he : e.Reduced) (hf : f.Reduced) :
    e.mul? f = some r ↔ r.Reduced ∧ r.InRange ∧ r.ratio = e.ratio * f.ratio := by
  have hc : (crossed e f).Reduced := reduced_crossed he hf
  have hiff : e.mul? f = some r ↔ (crossed e f).InRange ∧ crossed e f = r := by
    simp only [mul?, Option.bind_eq_bind, Option.bind_eq_some_iff, inWord?_eq_some_iff]
    constructor
    · rintro ⟨_, ⟨hn, rfl⟩, _, ⟨hd, rfl⟩, h⟩
      exact ⟨⟨hn, hd⟩, Option.some.inj ((hc.reduce?_self ⟨hn, hd⟩).symm.trans h)⟩
    · rintro ⟨⟨hn, hd⟩, rfl⟩
      exact ⟨_, ⟨hn, rfl⟩, _, ⟨hd, rfl⟩, hc.reduce?_self ⟨hn, hd⟩⟩
  rw [hiff]
  constructor
  · rintro ⟨hrange, rfl⟩
    exact ⟨hc, hrange, ratio_crossed he.proper hf.proper⟩
  · rintro ⟨hr, hrange, h⟩
    obtain rfl := hc.eq_of_ratio hr ((ratio_crossed he.proper hf.proper).trans h.symm)
    exact ⟨hrange, rfl⟩

theorem ratio_of_mul? (he : e.Proper) (hf : f.Proper) (h : e.mul? f = some r) :
    r.ratio = e.ratio * f.ratio := by
  simp only [mul?, Option.bind_eq_bind, Option.bind_eq_some_iff, inWord?_eq_some_iff] at h
  obtain ⟨_, ⟨-, rfl⟩, _, ⟨-, rfl⟩, h⟩ := h
  change reduce? (crossed e f).numerator (crossed e f).denominator = some r at h
  rw [ratio_of_reduce? (proper_crossed he hf) h]
  exact ratio_crossed he hf

def inverse (e : Exponent) : Exponent :=
  ⟨e.denominator, e.numerator⟩

theorem reduced_inverse (he : e.Reduced) (hpos : 0 < e.numerator) : e.inverse.Reduced :=
  ⟨hpos, Int.gcd_comm _ _ ▸ he.2⟩

theorem ratio_inverse (e : Exponent) : e.inverse.ratio = e.ratio⁻¹ :=
  (inv_div _ _).symm

theorem ratio_of_quotient? (he : e.Proper) (hf : f.Proper) (hne : f.numerator ≠ 0)
    (h : e.quotient? f = some (n, d)) : e.ratio / f.ratio = n / d := by
  have hed := he.denominator_ne_zero
  have hfd := hf.denominator_ne_zero
  have hfn : (f.numerator : ℚ) ≠ 0 := Int.cast_ne_zero.2 hne
  unfold quotient? at h
  split at h
  · rename_i heq
    obtain ⟨rfl, rfl⟩ := Prod.mk.inj (Option.some.inj h)
    rw [ratio, ratio, heq, div_div_div_cancel_right₀ hfd]
  · split at h
    · rename_i heq
      obtain ⟨rfl, rfl⟩ := Prod.mk.inj (Option.some.inj h)
      rw [ratio, ratio, heq, div_div_div_cancel_left' _ _ hfn]
    · simp only [Option.bind_eq_bind, Option.bind_eq_some_iff, inWord?_eq_some_iff] at h
      obtain ⟨_, ⟨-, rfl⟩, _, ⟨-, rfl⟩, h⟩ := h
      obtain ⟨rfl, rfl⟩ := Prod.mk.inj (Option.some.inj h)
      rw [div_eq_mul_inv, ← ratio_inverse]
      exact (ratio_crossed he (f := f.inverse) hne).symm

theorem exists_quotient? (he : e.Reduced) (hf : f.Reduced) (hpos : 0 < f.numerator)
    (hr : r.Reduced) (hrange : r.InRange) (h : r.ratio = e.ratio / f.ratio) :
    ∃ n d, e.quotient? f = some (n, d) := by
  unfold quotient?
  split
  · exact ⟨_, _, rfl⟩
  · split
    · exact ⟨_, _, rfl⟩
    · have hi : f.inverse.Reduced := reduced_inverse hf hpos
      have hratio : (crossed e f.inverse).ratio = r.ratio := by
        rw [ratio_crossed he.proper hi.proper, ratio_inverse, h, div_eq_mul_inv]
      obtain rfl := (reduced_crossed he hi).eq_of_ratio hr hratio
      simp only [Option.bind_eq_bind, Option.bind_eq_some_iff, inWord?_eq_some_iff]
      exact ⟨_, _, _, ⟨hrange.1, rfl⟩, _, ⟨hrange.2, rfl⟩, rfl⟩

/-- The division of an unreduced pair, with the check of its parts. -/
theorem div?_steps (hf : f.numerator ≠ 0) :
    e.div? f = some r ↔ ∃ n d, e.quotient? f = some (n, d) ∧ reduce? n d = some r := by
  have hzero : f.isZero = false := decide_eq_false hf
  simp only [div?, hzero, Bool.false_eq_true, if_false, Option.bind_eq_bind,
    Option.bind_eq_some_iff, Prod.exists]

theorem ratio_of_div? (he : e.Proper) (hf : f.Proper) (hne : f.numerator ≠ 0)
    (h : e.div? f = some r) : r.ratio = e.ratio / f.ratio := by
  obtain ⟨n, d, hq, h⟩ := (div?_steps hne).1 h
  rw [ratio_of_reduce? (denominator_of_quotient? he hne hq) h, ratio_of_quotient? he hf hne hq]

theorem div?_eq_some_iff (he : e.Reduced) (hf : f.Reduced) (hpos : 0 < f.numerator) :
    e.div? f = some r ↔ r.Reduced ∧ r.InRange ∧ r.ratio = e.ratio / f.ratio := by
  constructor
  · intro h
    exact ⟨reduced_of_div? he.proper h, inRange_of_div? h,
      ratio_of_div? he.proper hf.proper hpos.ne' h⟩
  · rintro ⟨hr, hrange, h⟩
    obtain ⟨n, d, hq⟩ := exists_quotient? he hf hpos hr hrange h
    have hd : d ≠ 0 := denominator_of_quotient? he.proper hpos.ne' hq
    have hreduce : reduce n d = r :=
      reduce_eq hr hd (h.trans (ratio_of_quotient? he.proper hf.proper hpos.ne' hq))
    exact (div?_steps hpos.ne').2 ⟨n, d, hq, reduce?_eq_some_iff.2 ⟨hreduce ▸ hrange, hreduce⟩⟩

end Products

end Exponent

end QuantityCalculus
