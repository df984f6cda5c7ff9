import QuantityCalculus.Proofs.Evaluation.Agreement
import QuantityCalculus.Proofs.Scope.Provenance

/-!
The limit on the depth. More room below the limit changes nothing but faults of the depth.
-/
namespace QuantityCalculus

/-- A fault of the depth, whatever limit it names. -/
def Stop.IsDepth (stop : Stop) : Prop :=
  ∃ limit site, stop = .fault ⟨.depth limit, site⟩

namespace Scope

/-- The same variables and functions, with at least as many levels left below the limit. -/
structure Roomier (s t : Scope) : Prop where
  values : t.values = s.values
  functions : t.functions = s.functions
  room : ∀ m, t.limit = some m → ∃ n, s.limit = some n ∧ n + t.depth ≤ m + s.depth

variable {s t : Scope}

theorem Roomier.deeper (h : s.Roomier t) : s.deeper.Roomier t.deeper := by
  refine ⟨h.values, h.functions, ?_⟩
  intro m hm
  obtain ⟨n, hn, hr⟩ := h.room m hm
  refine ⟨n, hn, ?_⟩
  change n + (t.depth + 1) ≤ m + (s.depth + 1)
  omega

theorem Roomier.atIndex (h : s.Roomier t) (index : String) (i : Int) :
    (s.atIndex index i).Roomier (t.atIndex index i) := by
  refine ⟨?_, h.functions, h.room⟩
  simp only [Scope.atIndex, bindValue, h.values]

theorem Roomier.entered (h : s.Roomier t) (captured : Scope) (parameters : List String)
    (values : List Value) :
    (captured.entered parameters values s).Roomier (captured.entered parameters values t) :=
  ⟨rfl, rfl, h.room⟩

theorem Roomier.hasRoom (h : s.Roomier t) (hs : s.HasRoom) : t.HasRoom := by
  intro m hm
  obtain ⟨n, hn, hr⟩ := h.room m hm
  have := hs n hn
  omega

/-- More room changes nothing but faults of the depth. -/
theorem evaluate_agrees_of_roomier (e : Equation) (hs : s.Unhosted) (h : s.Roomier t) :
    (s.evaluate e).AgreesUnless Stop.IsDepth (t.evaluate e) := by
  induction s, e using below_induction generalizing t with
  | step s e ih =>
    rw [evaluate_eq_bind s e, evaluate_eq_bind t e]
    rcases s.enter_eq e with ⟨hr, he⟩ | ⟨n, -, -, he⟩
    · rcases t.enter_eq e with ⟨-, he'⟩ | ⟨n, hl, hn, -⟩
      · rw [he, he', Outcome.ok_bind, Outcome.ok_bind]
        apply evaluateNode_agrees
        · intro name _
          rw [value?, value?, h.values]
        · intro name arguments _
          rw [function?, function?, h.functions]
        · intro name run
          exact hs.not_hosted
        · intro p hp
          exact ih _ p hp.below (hs.congr rfl) h.deeper
        · intro name index first last term i hc _
          subst hc
          have hp : term ∈ (Equation.call name [.reference index, first, last, term]).parts := by
            simp [Equation.parts]
          exact ih (s.deeper.atIndex index i) term (.part rfl hp) (hs.congr rfl)
            (h.deeper.atIndex index i)
        · intro name arguments parameters body captured values hc hf _
          exact ih (captured.entered parameters values s.deeper) body (.body hf rfl)
            ((hs.captured hf).congr rfl) (h.deeper.entered captured parameters values)
      · have := h.hasRoom hr n hl
        omega
    · rw [he]
      exact .inr ⟨_, rfl, n, e, rfl⟩

/-- A value that is found under a limit is found wherever there is more room. -/
theorem Roomier.evaluate_eq_ok (h : s.Roomier t) (hs : s.Unhosted) {e : Equation} {v : Value}
    (he : s.evaluate e = .ok v) : t.evaluate e = .ok v :=
  (evaluate_agrees_of_roomier e hs h).eq_ok he

theorem deeper_roomier (s : Scope) : s.deeper.Roomier s := by
  refine ⟨rfl, rfl, ?_⟩
  intro m hm
  refine ⟨m, hm, ?_⟩
  change m + s.depth ≤ m + (s.depth + 1)
  omega

end Scope

end QuantityCalculus
