import QuantityCalculus.Proofs.Evaluation.Invariance
import QuantityCalculus.Proofs.Evaluation.Stops

/-!
Where faults lie. A fault is blamed on a tree in the equation, or on one in the body of a defined
function that the scope reaches.
-/
namespace QuantityCalculus.Scope

variable {s t : Scope} {e p : Equation} {f : Fault}

theorem Reaches.congr {g : Callable} (h : t.Reaches g) (hf : t.functions = s.functions) :
    s.Reaches g := by
  induction h with
  | @bound name g hn =>
    have hn : s.function? name = some g := by
      rw [function?, ← hf]
      exact hn
    exact .bound hn
  | captured _ hn ih => exact .captured ih hn

theorem Reaches.of_captured {name : String} {parameters : List String} {body : Equation}
    {captured : Scope} {g : Callable} (h : captured.Reaches g)
    (hf : s.function? name = some (.defined parameters body captured)) : s.Reaches g := by
  induction h with
  | bound hn => exact .captured (.bound hf) hn
  | captured _ hn ih => exact .captured ih hn

/-- The tree stands in the equation or in the body of a function that the scope reaches. -/
def Covers (s : Scope) (e p : Equation) : Prop :=
  p.Within e ∨ ∃ parameters body captured,
    s.Reaches (.defined parameters body captured) ∧ p.Within body

theorem Covers.of_within {q : Equation} (h : s.Covers e p) (hq : q.Within p) : s.Covers e q := by
  rcases h with hp | ⟨parameters, body, captured, hr, hp⟩
  · exact .inl (hq.trans hp)
  · exact .inr ⟨parameters, body, captured, hr, hq.trans hp⟩

/-- What a visited evaluation evaluates is covered, as are the functions that it can come to. -/
theorem Visits.covers (h : s.Visits e t p) :
    s.Covers e p ∧ ∀ g, t.Reaches g → s.Reaches g := by
  induction h with
  | refl => exact ⟨.inl (.refl e), fun g hg => hg⟩
  | tail _ hs ih =>
    obtain ⟨hc, hr⟩ := ih
    rcases hs.below with ⟨hf, hp⟩ | ⟨hf, hu⟩
    · exact ⟨hc.of_within (Equation.within_of_mem_parts hp), fun g hg => hr g (hg.congr hf)⟩
    · constructor
      · exact .inr ⟨_, _, _, hr _ (.bound hf), .refl _⟩
      · intro g hg
        exact hr g ((hg.congr hu).of_captured hf)

theorem Visits.unhosted (h : s.Visits e t p) (hs : s.Unhosted) : t.Unhosted :=
  h.builtFrom hs

theorem within_of_blames {name : String} {arguments : List Equation}
    (h : (s.callOf name arguments).Blames (.fault f)) : f.site.Within (.call name arguments) := by
  obtain ⟨hs | ⟨a, ha, hs⟩, -⟩ := h
  · rw [hs]
    exact .refl _
  · obtain ⟨tree, ht, rfl⟩ := List.mem_map.1 ha
    rw [hs]
    exact Equation.within_of_mem_parts ht

theorem within_of_getElem? (name : String) (arguments : List Equation) (index : Nat) :
    (arguments[index]?.getD (.call name arguments)).Within (.call name arguments) := by
  cases h : arguments[index]? with
  | none => exact .refl _
  | some a => exact Equation.within_of_mem_parts (List.mem_of_getElem? h)

/-- A node blames itself or one of its parts. -/
theorem Raises.within (h : s.Raises e (.fault f)) (hs : s.Unhosted) : f.site.Within e := by
  generalize hstop : Stop.fault f = stop at h
  cases h with
  | operator ho ha hb h =>
    subst hstop
    rw [Arithmetic.site_of_apply h]
    exact .refl _
  | hosted hf => exact absurd hf hs.not_hosted
  | squareRoot hf hv h =>
    subst hstop
    exact within_of_blames ((Radical.squareRootOf_ends _).2 _ h)
  | root hf hk hv h =>
    subst hstop
    exact within_of_blames ((Radical.rootOf_ends _ _).2 _ h)
  | addition hf hm hn hl hu htotal ht h =>
    subst hstop
    rw [Arithmetic.site_of_apply (show Arithmetic.apply .plus _ _ _ = _ from h)]
    exact .refl _
  | violation hf hx h =>
    obtain rfl := Stop.fault.inj hstop
    exact within_of_getElem? _ _ _
  | cellUnits hc | nested hc =>
    obtain rfl := Stop.fault.inj hstop
    exact Equation.within_of_mem_parts (by simp [Equation.parts, hc])
  | notNumber =>
    obtain rfl := Stop.fault.inj hstop
    exact Equation.within_of_mem_parts (by simp [Equation.parts])
  | seriesVariable | seriesStart | seriesEnd =>
    obtain rfl := Stop.fault.inj hstop
    exact Equation.within_of_mem_parts (by simp [Equation.parts])
  | _ =>
    obtain rfl := Stop.fault.inj hstop
    exact .refl _

/-- A fault lies in the equation or in the body of a defined function that the scope reaches; in
the equation, if the scope reaches none. -/
theorem fault_located (s : Scope) (e : Equation) (f : Fault) (hs : s.Unhosted)
    (h : s.evaluate e = .error (.fault f)) :
    (f.site.Within e ∨ ∃ parameters body captured,
      s.Reaches (.defined parameters body captured) ∧ f.site.Within body) ∧
    ((∀ parameters body captured, ¬ s.Reaches (.defined parameters body captured)) →
      f.site.Within e) := by
  obtain ⟨t, p, hv, hr⟩ := exists_raises h
  have hc : s.Covers e f.site := hv.covers.1.of_within (hr.within (hv.unhosted hs))
  refine ⟨hc, ?_⟩
  intro hnone
  rcases hc with hw | ⟨parameters, body, captured, hreach, -⟩
  · exact hw
  · exact absurd hreach (hnone parameters body captured)

/-- A share of nothing is blamed on the body of the function that divides. -/
theorem fault_located_sample :
    ∃ f, sample.evaluate (.call "share" [.reference "length", .number 0.0]) =
        .error (.fault f) ∧
      f.site = .binary .fraction (.reference "x") (.reference "n") ∧
      (f.site.Within (.call "share" [.reference "length", .number 0.0]) ∨
        ∃ parameters body captured, sample.Reaches (.defined parameters body captured) ∧
          f.site.Within body) := by
  refine ⟨_, rfl, rfl, ?_⟩
  exact (fault_located sample _ _ (sample_builtFrom trivial) rfl).1

end QuantityCalculus.Scope
