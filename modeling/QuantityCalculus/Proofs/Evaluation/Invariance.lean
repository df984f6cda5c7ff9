import QuantityCalculus.Proofs.Evaluation.Subevaluation
import QuantityCalculus.Proofs.Scope.Provenance
import QuantityCalculus.Proofs.Value.Closure

/-!
Properties of values that evaluations keep. In a scope of values with such a property, every
evaluation that an evaluation comes to has such a scope again, and finds a value with the property
or none. That a value is well-formed is one of them.
-/
namespace QuantityCalculus

variable {numeric : NumericFunction → Prop} {good : Value → Prop} {s t : Scope} {e p : Equation}

namespace Scope

/-- The scope of a started evaluation holds values of the scope before it, numbers, and values of
arguments. -/
theorem Starts.builtFrom (hs : s.Starts e t p) (h : s.BuiltFrom numeric good)
    (number : ∀ x, good (.number x))
    (value : ∀ q v, s.Starts e s.deeper q → s.deeper.evaluate q = .ok v → good v) :
    t.BuiltFrom numeric good := by
  have hd : s.deeper.BuiltFrom numeric good := h.congr rfl rfl
  cases hs with
  | @body name parameters body captured arguments values hf hl hv =>
    have hc := BuiltFrom.captured (h.functions name _ hf)
    constructor
    · intro bound v hb
      rcases Bindings.find?_insertAll _ _ hb with hm | hb
      · have hmem : v ∈ values := by
          obtain ⟨⟨n, w⟩, hw, rfl⟩ := List.mem_map.1 hm
          exact (List.of_mem_zip hw).2
        obtain ⟨a, ha, hav⟩ := Lists.exists_of_forall₂ (Outcome.mapM_eq_ok.1 hv).flip v hmem
        exact value a v (.argument hf trivial ha) hav
      · exact hc.values bound v hb
    · exact hc.functions
  | term => exact hd.bindValue _ (number _)
  | _ => exact hd

end Scope

section Closed

variable (hgood : Value.Closed good)

include hgood

theorem MatrixLiteral.good_of_value {site : Equation} {bindings : Bindings Value}
    {arguments : List (List Argument)} {v : Value}
    (h : value site bindings arguments = .ok v)
    (cells : ∀ row ∈ arguments, ∀ a ∈ row, ∀ w, a.value bindings = .ok w → good w) : good v := by
  obtain ⟨u, xss, m, hrows, hm, rfl⟩ := value_eq_ok.1 h
  have hm : m.WellFormed := (Matrix.wellFormed_of_ofRows? hm).1
  have hunits : ∀ row ∈ arguments, ∀ a ∈ row, ∀ w, a.value bindings = .ok w →
      ∃ c, good c ∧ c.units = w.units := by
    intro row hr a ha w hw
    exact ⟨w, cells row hr a ha w hw, rfl⟩
  have hu : ∀ w ∈ u, ∃ c, good c ∧ c.units = w := (rows_eq_ok hrows (by simp) hunits).2
  cases u with
  | none => exact hgood.matrix (hgood.number 0.0) hm
  | some w =>
    obtain ⟨c, hc, rfl⟩ := hu w rfl
    exact hgood.matrix hc hm

namespace Scope

theorem good_of_sumOf {name index : String} {arguments : List Equation} {term : Equation}
    {low high : Int} {v : Value}
    (terms : ∀ i w, low ≤ i → i ≤ high → (s.atIndex index i).evaluate term = .ok w → good w)
    (h : s.sumOf name arguments index term low high = .ok v) : good v := by
  have hplus : ∀ a b c : Value, good a → good b →
      Arithmetic.plus (.call name arguments) a b = .ok c → good c := by
    intro a b c ha hb hc
    exact hgood.apply ha hb (show Arithmetic.apply .plus _ a b = .ok c from hc)
  exact Series.between_induction hplus terms h

theorem good_of_builtin {b : Builtin} {name : String} {arguments : List Equation} {v : Value}
    (hf : s.function? name = some (.builtin b))
    (started : ∀ t p w, s.Starts (.call name arguments) t p → t.evaluate p = .ok w → good w)
    (h : (Callable.builtin b).run (s.deeper.callOf name arguments) = .ok v) : good v := by
  rcases b.rule_cases with ⟨apply, hr, -⟩ | rfl | rfl | rfl
  · obtain ⟨-, xs, x, -, -, rfl⟩ := (run_rule_eq_ok hr).1 h
    exact hgood.number x
  · obtain ⟨radicand, w, rfl, hw, h⟩ := run_sqrt_eq_ok.1 h
    obtain ⟨x, u, -, -, hu, rfl⟩ := Radical.squareRootOf_eq_ok.1 h
    have hs : s.Starts (.call name [radicand]) s.deeper radicand :=
      .argument hf (by simp [Callable.IsStrict]) (by simp)
    exact hgood.root (started _ _ w hs hw) hu _
  · obtain ⟨index, radicand, k, w, rfl, -, hw, h⟩ := run_root_eq_ok.1 h
    obtain ⟨x, n, u, -, -, -, hu, rfl⟩ := Radical.rootOf_eq_ok.1 h
    have hs : s.Starts (.call name [index, radicand]) s.deeper radicand :=
      .argument hf (by simp [Callable.IsStrict]) (by simp)
    exact hgood.root (started _ _ w hs hw) hu _
  · obtain ⟨index, first, last, term, m, n, rfl, hm, hn, h⟩ := run_sum_eq_ok.1 h
    have hterms : ∀ i w, min m n ≤ i → i ≤ max m n →
        (s.deeper.atIndex index i).evaluate term = .ok w → good w := by
      intro i w hl hu hw
      exact started _ _ w (.term hf hm hn hl hu) hw
    exact good_of_sumOf hgood hterms h

/-- A node has a value with the property if the evaluations that it starts find such values. -/
theorem good_of_started (h : s.BuiltFrom numeric good) {v : Value} (he : s.evaluate e = .ok v)
    (started : ∀ t p w, s.Starts e t p → t.evaluate p = .ok w → good w) : good v := by
  obtain ⟨-, he⟩ := evaluate_eq_ok.1 he
  cases e with
  | number x =>
    obtain rfl : .number x = v := Except.ok.inj he
    exact hgood.number x
  | reference name =>
    cases hn : s.value? name with
    | none => simp [evaluateNode, hn] at he
    | some w =>
      obtain rfl : w = v := by simpa [evaluateNode, hn] using he
      exact h.values name w hn
  | block child => exact started _ _ v .block he
  | signed operator operand =>
    cases operator with
    | positive => exact started _ _ v (.signed (by simp)) he
    | negative =>
      obtain ⟨w, hw, rfl⟩ := Outcome.map_eq_ok.1 he
      exact hgood.negate (started _ _ w (.signed (by simp)) hw)
    | plusMinus => exact absurd he Outcome.blame_ne_ok
  | binary operator left right =>
    by_cases ho : operator = .plusMinus
    · simp [evaluateNode, ho] at he
    · obtain ⟨a, b, ha, hb, he⟩ := (evaluateNode_binary_eq_ok ho).1 he
      have ha := started _ _ a (.left ho) ha
      have hb := started _ _ b (.right ho) hb
      exact hgood.apply ha hb he
  | call name arguments =>
    cases hf : s.function? name with
    | none => simp [evaluateNode, hf] at he
    | some f =>
      rw [evaluateNode_call hf] at he
      cases f with
      | builtin b => exact good_of_builtin hgood hf started he
      | numeric f =>
        obtain ⟨-, xs, -, -, rfl⟩ := run_numeric_eq_ok.1 he
        exact hgood.number _
      | hosted run => exact absurd hf h.not_hosted
      | defined parameters body captured =>
        obtain ⟨hl, values, hv, he⟩ := run_defined_eq_ok.1 he
        exact started _ _ v (.body hf hl hv) he
  | matrix rows =>
    apply MatrixLiteral.good_of_value hgood he
    intro cells hcells a ha w hw
    obtain ⟨row, hr, rfl⟩ := List.mem_map.1 hcells
    obtain ⟨tree, ht, rfl⟩ := List.mem_map.1 ha
    rw [value_argument] at hw
    exact started _ _ w (.cell hr ht) hw
  | comparison | missingOperand | missingOperator | missingSign | missingFunction | unreadable =>
    exact absurd he Outcome.blame_ne_ok

theorem good_of_evaluate (h : s.BuiltFrom numeric good) {v : Value}
    (he : s.evaluate e = .ok v) : good v := by
  induction s, e using starts_induction generalizing v with
  | step s e ih =>
    have hd : s.deeper.BuiltFrom numeric good := h.congr rfl rfl
    have hvalue : ∀ q w, s.Starts e s.deeper q → s.deeper.evaluate q = .ok w → good w := by
      intro q w hq hw
      exact ih _ q hq hd hw
    apply good_of_started hgood h he
    intro t p w hs hw
    exact ih t p hs (hs.builtFrom h hgood.number hvalue) hw

theorem Visits.builtFrom_closed (hv : s.Visits e t p) (h : s.BuiltFrom numeric good) :
    t.BuiltFrom numeric good := by
  induction hv with
  | refl => exact h
  | @tail t u p q _ hs ih =>
    have hd : t.deeper.BuiltFrom numeric good := ih.congr rfl rfl
    exact hs.builtFrom ih hgood.number fun q v _ hv => good_of_evaluate hgood hd hv

end Scope

end Closed

namespace Scope

theorem Visits.builtFrom (hv : s.Visits e t p) (h : s.BuiltFrom numeric fun _ => True) :
    t.BuiltFrom numeric fun _ => True :=
  hv.builtFrom_closed Value.closed_true h

theorem wellFormed_of_evaluate (h : s.BuiltFrom numeric Value.WellFormed) {v : Value}
    (he : s.evaluate e = .ok v) : v.WellFormed :=
  good_of_evaluate Value.closed_wellFormed h he

theorem Visits.wellFormed (hv : s.Visits e t p) (h : s.BuiltFrom numeric Value.WellFormed) :
    t.BuiltFrom numeric Value.WellFormed :=
  hv.builtFrom_closed Value.closed_wellFormed h

/-- Every evaluation that is come to sees well-formed values only and finds a well-formed one;
operators and negation keep values well-formed by themselves. -/
theorem evaluation_wellFormed (s : Scope) (e : Equation)
    (h : s.BuiltFrom (fun _ => True) Value.WellFormed) :
    (∀ v, s.evaluate e = .ok v → v.WellFormed) ∧
      (∀ t p, s.Visits e t p → (∀ name v, t.value? name = some v → v.WellFormed) ∧
        ∀ v, t.evaluate p = .ok v → v.WellFormed) ∧
      (∀ operator site a b v, a.WellFormed → b.WellFormed →
        Arithmetic.apply operator site a b = .ok v → v.WellFormed) ∧
      ∀ v : Value, v.WellFormed → v.negate.WellFormed := by
  refine ⟨?_, ?_, ?_, ?_⟩
  · intro v hv
    exact wellFormed_of_evaluate h hv
  · intro t p hp
    have ht := hp.wellFormed h
    exact ⟨ht.values, fun v hv => wellFormed_of_evaluate ht hv⟩
  · intro operator site a b v ha hb hv
    exact Arithmetic.wellFormed_of_apply ha hb hv
  · intro v hv
    exact hv.negate

theorem evaluation_wellFormed_sample :
    sample.evaluate sampleSum = .ok (.measured (.base "m") (.number 9.0)) ∧
      (Value.measured (.base "m") (.number 9.0)).WellFormed := by
  have h := evaluation_wellFormed sample sampleSum (sample_builtFrom (by decide))
  exact ⟨evaluate_sampleSum, h.1 _ evaluate_sampleSum⟩

end Scope

end QuantityCalculus
