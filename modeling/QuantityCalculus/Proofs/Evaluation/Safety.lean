import QuantityCalculus.Proofs.Evaluation.Invariance
import QuantityCalculus.Proofs.Evaluation.Stops

/-!
No evaluation comes to a step that the checks before it rule out, nor to operands that an operator
has no rule for, as long as all functions are built-in or defined and all values well-formed.
-/
namespace QuantityCalculus.Scope

variable {s t : Scope} {e p : Equation} {stop : Stop}

theorem genuine_of_blames {call : Call} (h : call.Blames stop) : stop.Genuine := by
  cases stop with
  | fault f => exact h.2
  | defect d => exact h

theorem Raises.genuine (h : s.Raises e stop)
    (hs : s.BuiltFrom (fun _ => False) Value.WellFormed) : stop.Genuine := by
  have hd : s.deeper.BuiltFrom (fun _ => False) Value.WellFormed := hs.congr rfl rfl
  cases h with
  | operator ho ha hb h =>
    have ha := wellFormed_of_evaluate hd ha
    have hb := wellFormed_of_evaluate hd hb
    exact Arithmetic.genuine_of_apply ha hb h
  | hosted hf => exact absurd hf hs.not_hosted
  | violation hf =>
    cases hs.functions _ _ hf with
    | numeric h => exact h.elim
  | squareRoot hf hv h => exact genuine_of_blames ((Radical.squareRootOf_ends _).2 stop h)
  | root hf hk hv h => exact genuine_of_blames ((Radical.rootOf_ends _ _).2 stop h)
  | @addition name index first last term m n i total t stop hf hm hn hl hu htotal ht h =>
    have hi (k : Int) : (s.deeper.atIndex index k).BuiltFrom (fun _ => False) Value.WellFormed :=
      hd.bindValue index (show (Value.number (Float.ofInt k)).WellFormed from trivial)
    have hterms (k : Int) (w : Value) (_ : min m n ≤ k) (_ : k ≤ i - 1)
        (hw : (s.deeper.atIndex index k).evaluate term = .ok w) : w.WellFormed :=
      wellFormed_of_evaluate (hi k) hw
    have htotal : total.WellFormed := good_of_sumOf Value.closed_wellFormed hterms htotal
    have ht : t.WellFormed := wellFormed_of_evaluate (hi i) ht
    exact Arithmetic.genuine_of_apply htotal ht (show Arithmetic.apply .plus _ _ _ = _ from h)
  | _ => simp [Stop.Genuine]

theorem genuine_of_evaluate (hs : s.BuiltFrom (fun _ => False) Value.WellFormed)
    (h : s.evaluate e = .error stop) : stop.Genuine := by
  obtain ⟨t, p, hv, hr⟩ := exists_raises h
  exact hr.genuine (hv.wellFormed hs)

/-- An evaluation that is come to takes none of the steps that are ruled out, and every fault it
finds is one that an equation can have. -/
theorem evaluation_safe (s : Scope) (e : Equation)
    (h : s.BuiltFrom (fun _ => False) Value.WellFormed) {t : Scope} {p : Equation}
    (hv : s.Visits e t p) :
    (∀ defect, t.evaluate p ≠ .error (.defect defect)) ∧
      ∀ f, t.evaluate p = .error (.fault f) →
        ∀ operator left right, f.cause ≠ .operandKinds operator left right := by
  have ht := hv.wellFormed h
  constructor
  · intro defect hd
    exact genuine_of_evaluate ht hd
  · intro f hf
    exact genuine_of_evaluate ht hf

/-- That a number is not added to a length is a fault of the equation. -/
theorem evaluation_safe_sample :
    ∃ f, sample.evaluate (.binary .plus sampleSum (.number 1.0)) = .error (.fault f) ∧
      ∀ operator left right, f.cause ≠ .operandKinds operator left right := by
  have h := evaluation_safe sample (.binary .plus sampleSum (.number 1.0))
    (sample_builtFrom (by decide)) .refl
  exact ⟨_, rfl, h.2 _ rfl⟩

end QuantityCalculus.Scope
