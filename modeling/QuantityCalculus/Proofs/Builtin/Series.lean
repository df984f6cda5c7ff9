import QuantityCalculus.Builtin.Series
import QuantityCalculus.Proofs.Outcome
import Mathlib.Data.Int.Init
import Mathlib.Data.Int.Range

/-!
Sums taken apart: which terms a sum evaluates, and where it can stop. A sum is a fold over the
integers of its range.
-/
namespace QuantityCalculus.Series

variable {call : Call}

theorem bound_eq_ok {place : Nat} {cause : String → Cause} {a : Argument} {n : Int} :
    bound call place cause a = .ok n ↔ ∃ v, call.valueOf a = .ok v ∧ bound? v = some n := by
  rw [bound, Outcome.bind_eq_ok]
  refine exists_congr fun v => and_congr_right fun _ => ?_
  cases bound? v <;> simp [Call.blameArgument]

theorem bound_eq_error {place : Nat} {cause : String → Cause} {a : Argument} {stop : Stop} :
    bound call place cause a = .error stop ↔ call.valueOf a = .error stop ∨
      ∃ v, call.valueOf a = .ok v ∧ bound? v = none ∧
        call.blameArgument place (cause call.name) = (.error stop : Outcome Int) := by
  rw [bound, Outcome.bind_eq_error]
  refine or_congr_right (exists_congr fun v => and_congr_right fun _ => ?_)
  cases bound? v <;> simp

variable {index : String} {term : Argument}

theorem exists_termAt_of_accumulate {count : Nat} {i : Int} {sum v : Value}
    (h : accumulate call index term count i sum = .ok v) {k : Int} (hl : i ≤ k)
    (hu : k < i + count) : ∃ t, termAt call index term k = .ok t := by
  induction count generalizing i sum with
  | zero => omega
  | succ count ih =>
    rw [accumulate, Outcome.bind_eq_ok] at h
    obtain ⟨t, ht, h⟩ := h
    obtain ⟨total, -, h⟩ := Outcome.bind_eq_ok.1 h
    obtain rfl | hk : i = k ∨ i + 1 ≤ k := by omega
    · exact ⟨t, ht⟩
    · exact ih h hk (by push_cast at hu; omega)

/-- A sum evaluates its term at every integer of the range. -/
theorem exists_termAt_of_between {low high : Int} {v : Value}
    (h : between call index term low high = .ok v) {k : Int} (hl : low ≤ k) (hu : k ≤ high) :
    ∃ t, termAt call index term k = .ok t := by
  have hle : low ≤ high := Int.le_trans hl hu
  rw [between, if_pos hle, Outcome.bind_eq_ok] at h
  obtain ⟨t, ht, h⟩ := h
  obtain rfl | hk : low = k ∨ low + 1 ≤ k := by omega
  · exact ⟨t, ht⟩
  · exact exists_termAt_of_accumulate h hk (by omega)

section Fold

theorem range_add_succ (i : Int) (count : Nat) :
    Int.range i (i + (count + 1 : Nat)) = i :: Int.range (i + 1) (i + 1 + count) := by
  have hcount : (i + (count + 1 : Nat) - i).toNat = count + 1 := by omega
  have hrest : (i + 1 + count - (i + 1)).toNat = count := by omega
  rw [Int.range, Int.range, hcount, hrest, List.range_succ_eq_map, List.map_cons, List.map_map]
  apply congrArg₂ List.cons (Int.add_zero i)
  apply List.map_congr_left
  intro k _
  rw [Function.comp_apply]
  omega

/-- Adds the term at one more integer to a sum. -/
def addTerm (site : Equation) (termOf : Int → Outcome Value) (sum : Value) (i : Int) :
    Outcome Value := do
  let t ← termOf i
  Arithmetic.plus site sum t

theorem accumulate_eq_foldlM (count : Nat) (i : Int) (sum : Value) :
    accumulate call index term count i sum =
      (Int.range i (i + count)).foldlM (addTerm call.site (termAt call index term)) sum := by
  induction count generalizing i sum with
  | zero =>
    have hempty : Int.range i (i + (0 : Nat)) = [] := by simp [Int.range]
    rw [accumulate, hempty, List.foldlM_nil]
    rfl
  | succ count ih =>
    rw [range_add_succ, List.foldlM_cons, accumulate, addTerm, bind_assoc]
    simp only [ih]

theorem accumulate_add (m n : Nat) (i : Int) (sum : Value) :
    accumulate call index term (m + n) i sum =
      (do accumulate call index term n (i + m) (← accumulate call index term m i sum)) := by
  induction m generalizing i sum with
  | zero => simp [accumulate]
  | succ m ih =>
    have hi : i + 1 + (m : Int) = i + ((m + 1 : Nat) : Int) := by push_cast; omega
    rw [Nat.add_right_comm]
    simp only [accumulate, ih, hi, bind_assoc]

theorem between_self (call : Call) (index : String) (term : Argument) (low : Int) :
    between call index term low low = termAt call index term low := by
  rw [between, if_pos (Int.le_refl low), Int.sub_self]
  exact bind_pure _

/-- A sum goes on from the sum of the first of its terms. -/
theorem between_eq_foldlM {low middle high : Int} (hl : low ≤ middle) (hu : middle ≤ high) :
    between call index term low high = (do
      let sum ← between call index term low middle
      (Int.range (middle + 1) (high + 1)).foldlM (addTerm call.site (termAt call index term))
        sum) := by
  have hcount : (high - low).toNat = (middle - low).toNat + (high - middle).toNat := by omega
  have hnext : low + 1 + ((middle - low).toNat : Int) = middle + 1 := by omega
  have hend : middle + 1 + ((high - middle).toNat : Int) = high + 1 := by omega
  rw [between, if_pos (Int.le_trans hl hu), between, if_pos hl, hcount]
  simp only [accumulate_add, bind_assoc, hnext, accumulate_eq_foldlM _ (middle + 1), hend]

/-- The last term is evaluated and added when all the others have been. -/
theorem between_last {low high : Int} (h : low < high) :
    between call index term low high = (do
      let sum ← between call index term low (high - 1)
      let t ← termAt call index term high
      Arithmetic.plus call.site sum t) := by
  have hlast : Int.range (high - 1 + 1) (high + 1) = [high] := by
    simp [Int.range]
  rw [between_eq_foldlM (Int.le_sub_one_of_lt h) (Int.sub_le_self high (by decide)), hlast]
  exact bind_congr fun sum => bind_pure _

theorem exists_between_of_between {low middle high : Int} {v : Value} (hl : low ≤ middle)
    (hu : middle ≤ high) (h : between call index term low high = .ok v) :
    ∃ sum, between call index term low middle = .ok sum := by
  rw [between_eq_foldlM hl hu] at h
  obtain ⟨sum, hsum, -⟩ := Outcome.bind_eq_ok.1 h
  exact ⟨sum, hsum⟩

end Fold

section Induction

/-- The sum has whatever the first term has and every addition of a further term keeps. -/
theorem between_rec {P : Int → Value → Prop} {low : Int}
    (first : ∀ a, termAt call index term low = .ok a → P low a)
    (next : ∀ k sum t v, low ≤ k → P k sum → termAt call index term (k + 1) = .ok t →
      Arithmetic.plus call.site sum t = .ok v → P (k + 1) v)
    {high : Int} {v : Value} (hle : low ≤ high)
    (h : between call index term low high = .ok v) : P high v := by
  induction high, hle using Int.leInduction generalizing v with
  | base =>
    rw [between_self] at h
    exact first v h
  | succ high hle ih =>
    rw [between_last (Int.lt_add_one_of_le hle), Int.add_sub_cancel] at h
    obtain ⟨sum, hsum, h⟩ := Outcome.bind_eq_ok.1 h
    obtain ⟨t, ht, h⟩ := Outcome.bind_eq_ok.1 h
    exact next high sum t v hle (ih hsum) ht h

/-- What holds of every term and is kept by addition holds of the sum. -/
theorem between_induction {P : Value → Prop}
    (plus : ∀ a b c, P a → P b → Arithmetic.plus call.site a b = .ok c → P c)
    {low high : Int} {v : Value}
    (terms : ∀ k t, low ≤ k → k ≤ high → termAt call index term k = .ok t → P t)
    (h : between call index term low high = .ok v) : P v := by
  by_cases hle : low ≤ high
  · refine between_rec (P := fun k w => k ≤ high → P w) ?_ ?_ hle h (Int.le_refl high)
    · intro a ha _
      exact terms low a (Int.le_refl low) hle ha
    · intro k sum t w hk hsum ht hw hu
      exact plus sum t w (hsum (by omega)) (terms (k + 1) t (by omega) hu ht) hw
  · simp [between, hle] at h

end Induction

/-- A sum that stops does so whatever comes later. -/
theorem between_eq_error_of_le {low middle high : Int} {stop : Stop} (hl : low ≤ middle)
    (hu : middle ≤ high) (h : between call index term low middle = .error stop) :
    between call index term low high = .error stop := by
  induction high, hu using Int.leInduction with
  | base => exact h
  | succ high hu ih =>
    have hlast : low < high + 1 := by omega
    rw [between_last hlast, Int.add_sub_cancel, ih]
    rfl

/-- A sum stops at a term, or at the addition of a term to the sum of the earlier ones. -/
theorem between_eq_error {low high : Int} {stop : Stop} (hle : low ≤ high)
    (h : between call index term low high = .error stop) :
    ∃ k, low ≤ k ∧ k ≤ high ∧ (k = low ∧ termAt call index term k = .error stop ∨
      low < k ∧ ∃ sum, between call index term low (k - 1) = .ok sum ∧
        (termAt call index term k = .error stop ∨ ∃ t, termAt call index term k = .ok t ∧
          Arithmetic.plus call.site sum t = .error stop)) := by
  -- The range grows at its end: a later term is only added to a sum that has a value.
  induction high, hle using Int.leInduction with
  | base =>
    rw [between_self] at h
    exact ⟨low, Int.le_refl _, Int.le_refl _, .inl ⟨rfl, h⟩⟩
  | succ high hle ih =>
    have hlast : low < high + 1 := by omega
    rw [between_last hlast, Outcome.bind_eq_error] at h
    rcases h with h | ⟨sum, hsum, h⟩
    · rw [Int.add_sub_cancel] at h
      obtain ⟨k, hl, hu, hk⟩ := ih h
      exact ⟨k, hl, by omega, hk⟩
    · exact ⟨high + 1, by omega, Int.le_refl _,
        .inr ⟨hlast, sum, hsum, Outcome.bind_eq_error.1 h⟩⟩

end QuantityCalculus.Series
