import QuantityCalculus.Builtin.Radical
import QuantityCalculus.Proofs.Builtin.Arguments
import QuantityCalculus.Proofs.Value.WellFormed

/-!
Roots split into the evaluation of their arguments and what is done with the values.
-/
namespace QuantityCalculus.Radical

variable {call : Call}

/-- The square root of an evaluated radicand. -/
def squareRootOf (call : Call) (v : Value) : Outcome Value :=
  match v.quantity with
  | .number x =>
    if x < 0.0 then call.blameArgument 0 (.negativeRadicand call.name)
    else rooted call 0 v.units 2 x.sqrt
  | .matrix _ => call.blameArgument 0 (.numbersOnly call.name)

/-- The root of an evaluated radicand for an index that is a bare number. -/
def rootOf (call : Call) (k : Float) (v : Value) : Outcome Value :=
  match v.quantity with
  | .number x =>
    match index? k with
    | none => call.blameArgument 0 (.rootIndex call.name)
    | some n =>
      if n % 2 = 0 ∧ x < 0.0 then call.blameArgument 1 (.evenRootOfNegative call.name)
      else do
        let degree ← Outcome.expect .zeroIndex (positive? n)
        rooted call 1 v.units degree (signedRoot k x)
  | .matrix _ => call.blameArgument 1 (.numbersOnly call.name)

theorem squareRoot_eq {radicand : Argument} (h : call.arguments = [radicand]) :
    squareRoot call = (do squareRootOf call (← call.valueOf radicand)) := by
  rw [squareRoot, h]
  cases hv : call.valueOf radicand with
  | error stop => simp [scalar, hv]
  | ok v =>
    cases hq : v.quantity <;> simp only [scalar, squareRootOf, hv, hq, Outcome.ok_bind] <;> rfl

theorem root_eq {index radicand : Argument} (h : call.arguments = [index, radicand]) :
    root call = (do
      match (← call.valueOf index).number? with
      | some k => rootOf call k (← call.valueOf radicand)
      | none => call.blameArgument 0 (.numbersOnly call.name)) := by
  rw [root, h]
  cases hi : call.valueOf index with
  | error stop => simp only [hi, Outcome.error_bind]
  | ok w =>
    simp only [hi, Outcome.ok_bind]
    cases w with
    | number k =>
      cases hv : call.valueOf radicand with
      | error stop => simp only [scalar, hv, Value.number?, Outcome.error_bind]
      | ok v =>
        cases hq : v.quantity <;>
          simp only [scalar, rootOf, hv, hq, Value.number?, Outcome.ok_bind] <;> rfl
    | matrix m => rfl
    | measured u q => rfl

theorem pos_of_index? {k : Float} {n : Nat} (h : index? k = some n) : 0 < n := by
  rw [index?, Option.bind_eq_bind, Option.bind_eq_some_iff] at h
  obtain ⟨i, -, hi⟩ := h
  split at hi
  · rename_i hr
    have hn : i.toNat = n := Option.some.inj hi
    omega
  · simp at hi

/-- An accepted index is not zero, so that the units can be divided by it. -/
theorem positive?_of_index? {k : Float} {n : Nat} (h : index? k = some n) :
    positive? n = some n :=
  if_neg (Nat.pos_iff_ne_zero.1 (pos_of_index? h))

section Results

variable {v result : Value} {stop : Stop}

theorem rooted_eq_ok {place : Nat} {units : CompoundUnit} {index : Nat} {x : Float} :
    rooted call place units index x = .ok result ↔
      ∃ w, units.root? index = some w ∧ result = .ofParts w (.number x) := by
  unfold rooted
  cases units.root? index with
  | none => simp [Call.blameArgument]
  | some w => simp [eq_comm]

theorem rooted_eq_error {place : Nat} {units : CompoundUnit} {index : Nat} {x : Float} :
    rooted call place units index x = .error stop ↔ units.root? index = none ∧
      call.blameArgument place (.exponentRange units) = (.error stop : Outcome Value) := by
  unfold rooted
  cases units.root? index with
  | none => simp
  | some w => simp

theorem squareRootOf_eq_ok :
    squareRootOf call v = .ok result ↔ ∃ x w, v.quantity = .number x ∧ ¬ x < 0.0 ∧
      v.units.root? 2 = some w ∧ result = .ofParts w (.number x.sqrt) := by
  unfold squareRootOf
  cases v.quantity with
  | matrix m => simp [Call.blameArgument]
  | number x =>
    by_cases hx : x < 0.0
    · simp [hx, Call.blameArgument]
    · simp [hx, rooted_eq_ok]

theorem rootOf_eq_ok {k : Float} :
    rootOf call k v = .ok result ↔ ∃ x n w, v.quantity = .number x ∧ index? k = some n ∧
      ¬ (n % 2 = 0 ∧ x < 0.0) ∧ v.units.root? n = some w ∧
      result = .ofParts w (.number (signedRoot k x)) := by
  unfold rootOf
  cases v.quantity with
  | matrix m => simp [Call.blameArgument]
  | number x =>
    cases hk : index? k with
    | none => simp [Call.blameArgument]
    | some n =>
      by_cases hx : n % 2 = 0 ∧ x < 0.0
      · simp [hx, Call.blameArgument]
      · have hsign : n % 2 = 0 → ¬ x < 0.0 := not_and.1 hx
        simp +contextual [hx, hsign, positive?_of_index? hk, Outcome.expect, rooted_eq_ok]

theorem squareRootOf_eq_error :
    squareRootOf call v = .error stop ↔
      (∃ m, v.quantity = .matrix m) ∧
          call.blameArgument 0 (.numbersOnly call.name) = (.error stop : Outcome Value) ∨
        ∃ x, v.quantity = .number x ∧
          (x < 0.0 ∧
              call.blameArgument 0 (.negativeRadicand call.name) = (.error stop : Outcome Value) ∨
            ¬ x < 0.0 ∧ v.units.root? 2 = none ∧
              call.blameArgument 0 (.exponentRange v.units) = (.error stop : Outcome Value)) := by
  unfold squareRootOf
  cases v.quantity with
  | matrix m => simp
  | number x =>
    by_cases hx : x < 0.0
    · simp [hx]
    · simp [hx, rooted_eq_error]

/-- The index is checked before the sign of the radicand, and the sign before the unit. -/
theorem rootOf_eq_error {k : Float} :
    rootOf call k v = .error stop ↔
      (∃ m, v.quantity = .matrix m) ∧
          call.blameArgument 1 (.numbersOnly call.name) = (.error stop : Outcome Value) ∨
        ∃ x, v.quantity = .number x ∧
          (index? k = none ∧
              call.blameArgument 0 (.rootIndex call.name) = (.error stop : Outcome Value) ∨
            ∃ n, index? k = some n ∧
              (n % 2 = 0 ∧ x < 0.0 ∧
                  call.blameArgument 1 (.evenRootOfNegative call.name) =
                    (.error stop : Outcome Value) ∨
                ¬ (n % 2 = 0 ∧ x < 0.0) ∧ v.units.root? n = none ∧
                  call.blameArgument 1 (.exponentRange v.units) =
                    (.error stop : Outcome Value))) := by
  unfold rootOf
  cases v.quantity with
  | matrix m => simp
  | number x =>
    cases hk : index? k with
    | none => simp
    | some n =>
      by_cases hx : n % 2 = 0 ∧ x < 0.0
      · simp [hx]
      · have hsign : n % 2 = 0 → ¬ x < 0.0 := not_and.1 hx
        simp +contextual [hx, hsign, positive?_of_index? hk, Outcome.expect, rooted_eq_error]

end Results

theorem rooted_ends (place : Nat) (units : CompoundUnit) (index : Nat) (x : Float) :
    (rooted call place units index x).Ends Value.WellFormed call.Blames := by
  unfold rooted
  split
  · rename_i hw
    exact Outcome.ends_ok
      (Value.wellFormed_ofParts (CompoundUnit.zeroFree_of_map? hw) trivial)
  · exact Call.blameArgument_ends (by simp)

theorem squareRootOf_ends (v : Value) :
    (squareRootOf call v).Ends Value.WellFormed call.Blames := by
  unfold squareRootOf
  split
  · split
    · exact Call.blameArgument_ends (by simp)
    · exact rooted_ends 0 v.units 2 _
  · exact Call.blameArgument_ends (by simp)

theorem rootOf_ends (k : Float) (v : Value) :
    (rootOf call k v).Ends Value.WellFormed call.Blames := by
  unfold rootOf
  split
  · split
    · exact Call.blameArgument_ends (by simp)
    · rename_i n hn
      split
      · exact Call.blameArgument_ends (by simp)
      · rw [positive?_of_index? hn]
        exact rooted_ends 1 v.units n _
  · exact Call.blameArgument_ends (by simp)

end QuantityCalculus.Radical
