import QuantityCalculus.Proofs.Evaluation.Grounds
import QuantityCalculus.Proofs.Evaluation.Location
import QuantityCalculus.Proofs.Evaluation.Strictness

/-!
Parts of an equation that could not be read. An equation with such a part has no value; the part is
reported if the evaluation comes to it, and hidden by any fault that is found before.
-/
namespace QuantityCalculus.Scope

variable {s t : Scope} {e p : Equation} {stop : Stop} {token : Unreadable}

/-- Without a limit on the depth, what stops an evaluation stops every one that leads to it. -/
theorem LeadsTo.evaluate_eq_error (h : s.LeadsTo e t p) (hl : s.limit = none)
    (hp : t.evaluate p = .error stop) : s.evaluate e = .error stop := by
  induction h with
  | refl => exact hp
  | tail h hc ih =>
    have hroom := hasRoom_of_limit (h.limit.trans hl)
    exact ih (hc.evaluate_eq_error hroom hp)

theorem evaluate_unreadable (hl : s.limit = none) (token : Unreadable) :
    s.evaluate (.unreadable token) = .error (.fault ⟨.unreadable token, .unreadable token⟩) :=
  evaluate_eq_error.2 (.inr ⟨hasRoom_of_limit hl, rfl⟩)

/-- A function that checks its arguments has found values for them, and blames no other tree than
one of them or its own call. -/
theorem RefusesNumbers.site_ne_unreadable {f : Fault} (h : s.RefusesNumbers e f) :
    f.site ≠ .unreadable token := by
  obtain ⟨name, arguments, g, xs, violation, rfl, -, hx, -, rfl⟩ := h
  cases ha : arguments[violation.index]? with
  | none => simp
  | some a =>
    intro hsite
    obtain rfl : a = .unreadable token := by simpa [ha] using hsite
    obtain ⟨v, hv⟩ := exists_ok_of_numbers hx _ (List.mem_of_getElem? ha)
    exact (accepts_of_evaluate hv).elim

theorem Raises.eq_unreadable
    (h : s.Raises e (.fault ⟨.unreadable token, .unreadable token⟩)) (hs : s.Unhosted) :
    e = .unreadable token := by
  have hb : s.BearsOut e ⟨.unreadable token, .unreadable token⟩ :=
    h.bearsOut hs fun hr => hr.site_ne_unreadable rfl
  exact hb.2

/-- Without a limit on the depth and functions of the host, an unreadable part is reported, as it
is, if and only if the evaluation comes to it. It stands in the equation or in the body of a
function that the scope reaches. An equation with an unreadable part has no value in any case. -/
theorem unreadable_reported (s : Scope) (e : Equation) (hs : s.Unhosted) (hl : s.limit = none) :
    (∀ token, s.evaluate e = .error (.fault ⟨.unreadable token, .unreadable token⟩) ↔
      ∃ t, s.LeadsTo e t (.unreadable token)) ∧
    (∀ t token, s.LeadsTo e t (.unreadable token) → s.Covers e (.unreadable token)) ∧
    ∀ token, (Equation.unreadable token).Within e → ∃ stop, s.evaluate e = .error stop := by
  refine ⟨?_, ?_, ?_⟩
  · intro token
    constructor
    · intro h
      -- Only an unreadable part raises this fault at a site of this kind.
      obtain ⟨t, p, hp, hr⟩ := exists_leadsTo h
      obtain rfl := hr.eq_unreadable (hp.visits.unhosted hs)
      exact ⟨t, hp⟩
    · rintro ⟨t, ht⟩
      exact ht.evaluate_eq_error hl (evaluate_unreadable (ht.limit.trans hl) token)
  · intro t token ht
    exact ht.visits.covers.1
  · intro token hw
    cases he : s.evaluate e with
    | error stop => exact ⟨stop, rfl⟩
    | ok v => exact (accepts_of_within hs he hw).elim

def unreadableSample : Unreadable :=
  ⟨"unexpected-token", 0, 1⟩

theorem empty_unhosted : empty.Unhosted := by
  constructor
  · intro _ _ _
    trivial
  · intro name f hf
    cases hf

/-- The right operand is reported after the left one has been evaluated. -/
theorem unreadable_reported_sample :
    empty.evaluate (.binary .plus (.number 1.0) (.unreadable unreadableSample)) =
      .error (.fault ⟨.unreadable unreadableSample, .unreadable unreadableSample⟩) := by
  have h := unreadable_reported empty
    (.binary .plus (.number 1.0) (.unreadable unreadableSample)) empty_unhosted rfl
  exact (h.1 unreadableSample).2 ⟨_, .tail .refl (.right (by decide) rfl)⟩

/-- An equation whose right side could not be read. -/
def halfRead : Equation :=
  .comparison .equals (.number 1.0) (.unreadable unreadableSample)

/-- A comparison hides what could not be read in it. -/
theorem unreadable_hidden :
    standard.limit = none ∧ (Equation.unreadable unreadableSample).Within halfRead ∧
      ∀ token site, standard.evaluate halfRead ≠ .error (.fault ⟨.unreadable token, site⟩) := by
  refine ⟨rfl, Equation.within_of_mem_parts (by simp [halfRead, Equation.parts]), ?_⟩
  intro token site h
  have he : standard.evaluate halfRead = Outcome.blame halfRead (.comparison .equals) := rfl
  rw [he] at h
  cases h

end QuantityCalculus.Scope
