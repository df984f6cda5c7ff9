import Mathlib
import QuantityCalculus.Binary64

/-!
Laws of floating-point arithmetic that survive rounding. Sums and products do not depend on the
order of their operands, and differences with the operands exchanged are opposite. They are
proved of numbers taken apart into sign, mantissa and exponent, and carried over to the format.
-/
namespace QuantityCalculus.Binary64

open Float.Model (Format UnpackedFloat)
open Float.Model.UnpackedFloat hiding Sign normalize

section Unpacked

variable {format : Format}

theorem add_unpacked_comm (x y : UnpackedFloat) : add format x y = add format y x := by
  cases x with
  | notANumber => cases y <;> rfl
  | infinity s =>
    cases y with
    | infinity t => cases s <;> cases t <;> rfl
    | _ => rfl
  | zero s =>
    cases y with
    | zero t => cases s <;> cases t <;> rfl
    | _ => rfl
  | finite s m e hm =>
    cases y with
    | finite t n f hn => simp only [add, Int.min_comm, Int.add_comm]
    | _ => rfl

theorem mul_unpacked_comm (x y : UnpackedFloat) : mul format x y = mul format y x := by
  have hsign (s t : UnpackedFloat.Sign) : s * t = t * s := by cases s <;> cases t <;> rfl
  cases x with
  | notANumber => cases y <;> rfl
  | infinity s => cases y <;> simp only [mul, hsign s]
  | zero s => cases y <;> simp only [mul, hsign s]
  | finite s m e hm =>
    cases y with
    | finite t n f hn => simp only [mul, hsign s, Nat.mul_comm m, Int.add_comm e]
    | _ => simp only [mul, hsign s]

/-- Rounding to nearest treats both signs alike. -/
theorem neg_roundWithAccuracy (s : UnpackedFloat.Sign) (m : Nat) (e : Int)
    (accuracy : Accuracy) :
    (roundWithAccuracy format s m e accuracy).neg = roundWithAccuracy format (-s) m e accuracy := by
  simp only [roundWithAccuracy]
  split <;> rfl

theorem neg_normalize {n : Int} (hn : n ≠ 0) (e : Int) (s : UnpackedFloat.Sign) :
    (UnpackedFloat.normalize format n e s).neg = UnpackedFloat.normalize format (-n) e s := by
  rcases Int.lt_or_gt_of_ne hn with h | h
  · have hless : compare n 0 = .lt := Int.compare_eq_lt.2 h
    have hgreater : compare (-n) 0 = .gt := Int.compare_eq_gt.2 (by omega)
    simp only [UnpackedFloat.normalize, hless, hgreater]
    exact neg_roundWithAccuracy ..
  · have hgreater : compare n 0 = .gt := Int.compare_eq_gt.2 h
    have hless : compare (-n) 0 = .lt := Int.compare_eq_lt.2 (by omega)
    simp only [UnpackedFloat.normalize, hless, hgreater, Int.neg_neg]
    exact neg_roundWithAccuracy ..

/-- One of the numbers is the other with its sign changed, or both are zero. -/
def Opposite (x y : UnpackedFloat) : Prop :=
  x = y.neg ∨ ∃ s t, x = .zero s ∧ y = .zero t

theorem opposite_sub (x y : UnpackedFloat) : Opposite (sub format x y) (sub format y x) := by
  cases x with
  | notANumber => cases y <;> exact .inl rfl
  | infinity s =>
    cases y with
    | infinity t => cases s <;> cases t <;> exact .inl rfl
    | _ => cases s <;> exact .inl rfl
  | zero s =>
    cases y with
    | zero t => cases s <;> cases t <;> exact .inr ⟨_, _, rfl, rfl⟩
    | _ => exact .inl rfl
  | finite s m e hm =>
    cases y with
    | finite t n f hn =>
      simp only [sub, Int.min_comm f e]
      generalize s.apply _ = a
      generalize t.apply _ = b
      -- Equal operands leave a zero of the same sign either way.
      by_cases h : b - a = 0
      · have hab : a - b = 0 := by omega
        rw [h, hab]
        exact .inr ⟨_, _, rfl, rfl⟩
      · left
        rw [neg_normalize h, Int.neg_sub]
    | _ => cases s <;> exact .inl rfl

end Unpacked

section Packed

theorem packComponents_inj {format : Format} {s t : UnpackedFloat.Sign}
    {E F : BitVec format.exponentBits} {M N : BitVec format.mantissaBitsWithoutImplicit}
    (h : packComponents format s E M = packComponents format t F N) : s = t ∧ E = F ∧ M = N := by
  have hsign := congrArg (fun b => UnpackedFloat.Sign.ofBitVec (unpackSign b)) h
  have hexponent := congrArg unpackExponent h
  have hmantissa := congrArg unpackMantissa h
  simp only [unpackSign_packComponents, UnpackedFloat.Sign.ofBitVec_toBitVec] at hsign
  simp only [unpackExponent_packComponents] at hexponent
  simp only [unpackMantissa_packComponents] at hmantissa
  exact ⟨hsign, hexponent, hmantissa⟩

/-- The fields of a number in the format; the sign has no part in the others. -/
theorem exists_pack_components {x : UnpackedFloat} (h : x ≠ .notANumber) :
    ∃ (s : UnpackedFloat.Sign) (E : BitVec 11) (M : BitVec 52), (E ≠ -1#11 ∨ M = 0#52) ∧
      pack .binary64 x = packComponents .binary64 s E M ∧
      pack .binary64 x.neg = packComponents .binary64 (-s) E M := by
  cases x with
  | notANumber => exact absurd rfl h
  | infinity s => exact ⟨s, -1#11, 0#52, .inr rfl, rfl, rfl⟩
  | zero s => exact ⟨s, 0#11, 0#52, .inr rfl, rfl, rfl⟩
  | finite s m e hm =>
    simp only [neg, pack]
    split
    · exact ⟨s, -1#11, 0#52, .inr rfl, rfl, rfl⟩
    · rename_i hrange
      split
      · refine ⟨s, _, _, .inl ?_, rfl, rfl⟩
        intro hE
        have hvalue := congrArg BitVec.toNat hE
        rw [BitVec.toNat_ofNat, Nat.mod_eq_of_lt (by omega)] at hvalue
        change _ = 2047 at hvalue
        omega
      · exact ⟨s, 0#11, _, .inl (by decide), rfl, rfl⟩

/-- A sign may be changed before or after a number is packed, also of one that is not yet rounded
to the format. -/
theorem pack_neg_unpack_pack (x : UnpackedFloat) :
    pack .binary64 (unpack .binary64 (pack .binary64 x)).neg = pack .binary64 x.neg := by
  by_cases hx : x = .notANumber
  · rw [hx]
    rfl
  · obtain ⟨s, E, M, h, hpack, hneg⟩ := exists_pack_components hx
    have hround : pack .binary64 (unpack .binary64 (pack .binary64 x)) = pack .binary64 x :=
      pack_unpack_of_valid valid_pack
    have hnumber : unpack .binary64 (pack .binary64 x) ≠ .notANumber := by
      intro hnan
      rw [hnan, hpack] at hround
      obtain ⟨-, hexponent, hmantissa⟩ := packComponents_inj hround
      rcases h with hE | hM
      · exact hE hexponent.symm
      · rw [hM] at hmantissa
        cases hmantissa
    obtain ⟨t, F, N, -, hpack', hneg'⟩ := exists_pack_components hnumber
    obtain ⟨rfl, rfl, rfl⟩ := packComponents_inj (hpack.symm.trans (hround.symm.trans hpack'))
    rw [hneg, hneg']

end Packed

section Doubles

variable {x y : Float}

protected theorem add_comm (x y : Float) : x + y = y + x := by
  change Float.ofModel (.pack _) = Float.ofModel (.pack _)
  rw [add_unpacked_comm]

protected theorem mul_comm (x y : Float) : x * y = y * x := by
  change Float.ofModel (.pack _) = Float.ofModel (.pack _)
  rw [mul_unpacked_comm]

theorem beq_self (h : x.isNaN = false) : (x == x) = true := by
  rw [Float.isNaN_eq_decide_eq_nan, decide_eq_false_iff_not] at h
  exact Float.beq_self_iff.2 h

/-- The difference of equal numbers is positive zero either way, so that bits may differ here. -/
theorem sub_beq_neg_sub (h : (x - y).isNaN = false) : (x - y == -(y - x)) = true := by
  have hneg : -(y - x) =
      Float.ofModel (.pack (sub .binary64 y.toModel.unpack x.toModel.unpack).neg) := by
    change Float.ofModel (.pack (unpack .binary64 (pack .binary64 _)).neg) = _
    simp only [Float.Model.pack, pack_neg_unpack_pack]
  rcases opposite_sub x.toModel.unpack y.toModel.unpack with heq | ⟨s, t, hs, ht⟩
  · have hsame : -(y - x) = x - y := by
      rw [hneg, ← heq]
      rfl
    rw [hsame]
    exact beq_self h
  · have hzero : x - y = Float.ofModel (.pack (.zero s)) := congrArg (Float.ofModel ∘ .pack) hs
    rw [hneg, ht, hzero]
    cases s <;> cases t <;> rfl

end Doubles

end QuantityCalculus.Binary64
