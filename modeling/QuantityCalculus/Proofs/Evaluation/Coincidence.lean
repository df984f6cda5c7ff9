import QuantityCalculus.Proofs.Evaluation.Agreement
import QuantityCalculus.Proofs.Scope.Provenance

/-!
Lexical scoping. The value of a tree depends on the functions that it names and on the values of
its free variables. A sum binds its index in its term only, and a defined function sees nothing of
its caller but the values of the arguments.
-/
namespace QuantityCalculus

/-- A variable that the tree takes from its scope. The first argument of a sum is not evaluated,
and the variable that it names is bound in the fourth. -/
inductive Equation.Free (functions : Bindings Callable) (name : String) : Equation → Prop where
  | reference : Free functions name (.reference name)
  | part {e p : Equation} (h : Free functions name p) (hp : p ∈ e.parts)
      (hsum : ∀ called arguments, e = .call called arguments →
        functions.find? called ≠ some (.builtin .sum)) : Free functions name e
  | argument {called : String} {arguments : List Equation} {place : Nat} {p : Equation}
      (h : Free functions name p) (hp : arguments[place]? = some p) (hfirst : place ≠ 0)
      (hterm : place = 3 → arguments[0]? ≠ some (.reference name)) :
      Free functions name (.call called arguments)

namespace Equation

variable {functions : Bindings Callable} {name : String}

theorem not_free_of_parts {e : Equation} (hn : ∀ other, e ≠ .reference other) (hp : e.parts = []) :
    ¬ e.Free functions name := by
  intro h
  cases h with
  | reference => exact hn _ rfl
  | part _ hm => simp [hp] at hm
  | argument _ ha =>
    obtain rfl : _ = [] := hp
    simp at ha

/-- The index of a sum is free in its bounds, where they name it, but not in its term. -/
theorem free_sum {called index : String} {first last term : Equation}
    (hf : functions.find? called = some (.builtin .sum)) :
    (Equation.call called [.reference index, first, last, term]).Free functions name ↔
      first.Free functions name ∨ last.Free functions name ∨
        index ≠ name ∧ term.Free functions name := by
  have h1 : [.reference index, first, last, term][1]? = some first := rfl
  have h2 : [.reference index, first, last, term][2]? = some last := rfl
  have h3 : [.reference index, first, last, term][3]? = some term := rfl
  constructor
  · intro h
    cases h with
    | part _ _ hsum => exact absurd hf (hsum _ _ rfl)
    | @argument _ _ place p h hp hfirst hterm =>
      obtain rfl | rfl | rfl | rfl | hge : place = 0 ∨ place = 1 ∨ place = 2 ∨ place = 3 ∨
          4 ≤ place := by omega
      · exact absurd rfl hfirst
      · obtain rfl : first = p := Option.some.inj hp
        exact .inl h
      · obtain rfl : last = p := Option.some.inj hp
        exact .inr (.inl h)
      · obtain rfl : term = p := Option.some.inj hp
        exact .inr (.inr ⟨by simpa using hterm rfl, h⟩)
      · rw [List.getElem?_eq_none (by simpa using hge)] at hp
        cases hp
  · rintro (h | h | ⟨hi, h⟩)
    · exact .argument h h1 (by simp) (by simp)
    · exact .argument h h2 (by simp) (by simp)
    · exact .argument h h3 (by simp) fun _ => by simpa using hi

end Equation

theorem Outcome.AgreesUnless.eq {α : Type} {x y : Outcome α}
    (h : x.AgreesUnless (fun _ => False) y) : x = y := by
  rcases h with h | ⟨-, -, h⟩
  · exact h
  · exact h.elim

namespace Scope

variable {s t : Scope} {e p : Equation}

/-- The scopes bind what the tree asks them for in the same way. The depth is of no account where
it has no limit. -/
structure Alike (s t : Scope) (e : Equation) : Prop where
  limit : t.limit = s.limit
  depth : s.limit = none ∨ t.depth = s.depth
  functions : ∀ name arguments, (Equation.call name arguments).Within e →
    t.function? name = s.function? name
  values : ∀ name, e.Free s.functions name → t.value? name = s.value? name

theorem ne_atIndex (s : Scope) (index : String) (i : Int) : s ≠ s.atIndex index i := by
  intro h
  have hv := congrArg (fun t : Scope => sizeOf t.values) h
  simp only [atIndex, bindValue, Bindings.insert, Bindings.bind.sizeOf_spec] at hv
  omega

/-- What is evaluated in the scope of the node itself is a part of it, whose free variables are free
in the node. -/
theorem Starts.place (h : s.Starts e s.deeper p) :
    p ∈ e.parts ∧ ∀ name, p.Free s.functions name → e.Free s.functions name := by
  generalize ht : s.deeper = t at h
  -- The scope of a term binds one name more than the node's, that of a body holds fewer functions.
  cases h with
  | block | signed _ | left _ | right _ =>
    exact ⟨by simp [Equation.parts], fun name h => .part h (by simp [Equation.parts]) (by simp)⟩
  | cell hr hm =>
    have hp := List.mem_flatten_of_mem hr hm
    exact ⟨hp, fun name h => .part h hp (by simp)⟩
  | @argument called f arguments tree hf hs hm =>
    refine ⟨hm, fun name h => .part h hm ?_⟩
    rintro _ _ ⟨rfl, rfl⟩ hsum
    obtain rfl : f = .builtin .sum := Option.some.inj (hf.symm.trans hsum)
    exact hs rfl
  | first hf =>
    exact ⟨by simp [Equation.parts], fun name h => (Equation.free_sum hf).2 (.inl h)⟩
  | last hf =>
    exact ⟨by simp [Equation.parts], fun name h => (Equation.free_sum hf).2 (.inr (.inl h))⟩
  | term => exact absurd ht (ne_atIndex _ _ _)
  | body hf =>
    have hc := sizeOf_captured_lt hf
    have hs := congrArg (fun t : Scope => sizeOf t.functions) ht
    simp only [deeper, entered] at hs
    omega

theorem Alike.deeper (h : s.Alike t e) (hp : s.Starts e s.deeper p) :
    s.deeper.Alike t.deeper p := by
  obtain ⟨hm, hfree⟩ := hp.place
  refine ⟨h.limit, ?_, ?_, ?_⟩
  · exact h.depth.imp_right (congrArg (· + 1))
  · intro name arguments hc
    exact h.functions name arguments (hc.trans (Equation.within_of_mem_parts hm))
  · intro name hn
    exact h.values name (hfree name hn)

/-- In the term of a sum, the index hides what the scope binds its name to. -/
theorem Alike.term {name index : String} {first last term : Equation}
    (h : s.Alike t (.call name [.reference index, first, last, term]))
    (hf : s.function? name = some (.builtin .sum)) (i : Int) :
    (s.deeper.atIndex index i).Alike (t.deeper.atIndex index i) term := by
  refine ⟨h.limit, ?_, ?_, ?_⟩
  · exact h.depth.imp_right (congrArg (· + 1))
  · intro called arguments hc
    have hm : term ∈ (Equation.call name [.reference index, first, last, term]).parts := by
      simp [Equation.parts]
    exact h.functions called arguments (hc.trans (Equation.within_of_mem_parts hm))
  · intro other hfree
    simp only [atIndex, bindValue, value?, Bindings.find?_insert]
    by_cases hi : index = other
    · simp [hi]
    · simp only [hi, if_false]
      exact h.values other ((Equation.free_sum hf).2 (.inr (.inr ⟨hi, hfree⟩)))

theorem Alike.entered (h : s.Alike t e) (captured : Scope) (parameters : List String)
    (values : List Value) (body : Equation) :
    (captured.entered parameters values s.deeper).Alike
      (captured.entered parameters values t.deeper) body :=
  ⟨h.limit, h.depth.imp_right (congrArg (· + 1)), fun _ _ _ => rfl, fun _ _ => rfl⟩

theorem enter_bind_eq {α : Type} {rest : Outcome α} (hl : t.limit = s.limit)
    (hd : s.limit = none ∨ t.depth = s.depth) :
    (do let _ ← enter s.limit s.depth e; rest) = (do let _ ← enter t.limit t.depth e; rest) := by
  rcases hd with hn | hd
  · rw [hl, hn]
    rfl
  · rw [hl, hd]

theorem Alike.evaluate_eq (h : s.Alike t e) (hs : s.Unhosted) : s.evaluate e = t.evaluate e := by
  induction s, e using below_induction generalizing t with
  | step s e ih =>
    have hnode : s.deeper.evaluateNode e = t.deeper.evaluateNode e := by
      apply Outcome.AgreesUnless.eq
      apply evaluateNode_agrees
      · rintro name rfl
        exact (h.values name .reference).symm
      · rintro name arguments rfl
        exact (h.functions name arguments (.refl _)).symm
      · intro name run
        exact hs.not_hosted
      · intro p hp
        exact .inl (ih _ p hp.below (h.deeper hp) (hs.congr rfl))
      · rintro name index first last term i rfl hf
        have hp : term ∈ (Equation.call name [.reference index, first, last, term]).parts := by
          simp [Equation.parts]
        exact .inl (ih (s.deeper.atIndex index i) term (.part rfl hp) (h.term hf i) (hs.congr rfl))
      · intro name arguments parameters body captured values _ hf _
        exact .inl (ih (captured.entered parameters values s.deeper) body (.body hf rfl)
          (h.entered captured parameters values body) ((hs.captured hf).congr rfl))
    rw [evaluate_eq_bind s e, evaluate_eq_bind t e, hnode]
    exact enter_bind_eq h.limit h.depth

/-- Without a limit it does not matter how deep a tree stands. -/
theorem evaluate_deeper (hs : s.Unhosted) (hl : s.limit = none) (e : Equation) :
    s.deeper.evaluate e = s.evaluate e := by
  have h : s.Alike s.deeper e := ⟨rfl, .inl hl, fun _ _ _ => rfl, fun _ _ => rfl⟩
  exact (h.evaluate_eq hs).symm

theorem alike_bindValue {name : String} (h : ¬ e.Free s.functions name) (v : Value) :
    s.Alike (s.bindValue name v) e := by
  refine ⟨rfl, .inr rfl, fun _ _ _ => rfl, ?_⟩
  intro other hfree
  have hne : name ≠ other := by
    rintro rfl
    exact h hfree
  simp [bindValue, value?, hne]

theorem alike_bindFunction {name : String}
    (h : ∀ arguments, ¬ (Equation.call name arguments).Within e) (f : Callable) :
    s.Alike (s.bindFunction name f) e := by
  refine ⟨rfl, .inr rfl, ?_, fun _ _ => rfl⟩
  intro other arguments hc
  have hne : name ≠ other := by
    rintro rfl
    exact h arguments hc
  simp [bindFunction, function?, hne]

/-- Only the innermost binding of an index is seen. -/
theorem alike_rebound (s : Scope) (index : String) (v w : Value) (e : Equation) :
    (s.bindValue index w).Alike ((s.bindValue index v).bindValue index w) e := by
  refine ⟨rfl, .inr rfl, fun _ _ _ => rfl, ?_⟩
  intro other _
  simp only [bindValue, value?, Bindings.find?_insert]
  split <;> rfl

/-- A call of a defined function sees nothing of its caller but the values of the arguments. -/
theorem evaluate_defined_eq {name : String} {parameters : List String} {body : Equation}
    {captured : Scope} {arguments : List Equation}
    (hf : s.function? name = some (.defined parameters body captured))
    (ht : t.function? name = some (.defined parameters body captured)) (hl : t.limit = s.limit)
    (hd : t.depth = s.depth)
    (ha : ∀ a ∈ arguments, s.deeper.evaluate a = t.deeper.evaluate a) :
    s.evaluate (.call name arguments) = t.evaluate (.call name arguments) := by
  have hnode : s.deeper.evaluateNode (.call name arguments) =
      t.deeper.evaluateNode (.call name arguments) := by
    rw [evaluateNode_call hf, evaluateNode_call ht]
    apply Outcome.AgreesUnless.eq
    apply run_defined_agrees
    · intro a hm
      exact .inl (ha a hm)
    · intro values _
      have he : captured.entered parameters values s.deeper =
          captured.entered parameters values t.deeper := by
        simp only [entered, deeper, hl, hd]
      exact .inl (by rw [he])
  rw [evaluate_eq_bind s, evaluate_eq_bind t, hnode]
  exact enter_bind_eq hl (.inr hd)

/-- Scopes in which the functions that a tree names and its free variables are bound alike have the
same outcome for it. So bindings of other names change nothing, a defined function sees nothing of
its caller but the values of the arguments, and an outer binding of its index is hidden from a
sum's term. -/
theorem evaluation_lexical (s : Scope) (hs : s.Unhosted) :
    (∀ (t : Scope) (e : Equation), t.limit = s.limit → t.depth = s.depth →
      (∀ name arguments, (Equation.call name arguments).Within e →
        t.function? name = s.function? name) →
      (∀ name, e.Free s.functions name → t.value? name = s.value? name) →
      s.evaluate e = t.evaluate e) ∧
    (∀ (e : Equation) name v, ¬ e.Free s.functions name →
      s.evaluate e = (s.bindValue name v).evaluate e) ∧
    (∀ e name f, (∀ arguments, ¬ (Equation.call name arguments).Within e) →
      s.evaluate e = (s.bindFunction name f).evaluate e) ∧
    (∀ (t : Scope) name arguments parameters body captured, t.limit = s.limit →
      t.depth = s.depth → s.function? name = some (.defined parameters body captured) →
      t.function? name = some (.defined parameters body captured) →
      (∀ a ∈ arguments, s.deeper.evaluate a = t.deeper.evaluate a) →
      s.evaluate (.call name arguments) = t.evaluate (.call name arguments)) ∧
    ∀ term index v i, (s.atIndex index i).evaluate term =
      ((s.bindValue index v).atIndex index i).evaluate term := by
  refine ⟨?_, ?_, ?_, ?_, ?_⟩
  · intro t e hl hd hf hv
    exact Alike.evaluate_eq ⟨hl, .inr hd, hf, hv⟩ hs
  · intro e name v hfree
    exact (alike_bindValue hfree v).evaluate_eq hs
  · intro e name f hcalls
    exact (alike_bindFunction hcalls f).evaluate_eq hs
  · intro t name arguments parameters body captured hl hd hf ht ha
    exact evaluate_defined_eq hf ht hl hd ha
  · intro term index v i
    exact (alike_rebound s index v _ term).evaluate_eq (hs.congr rfl)

/-- The index of a sum is not free in it, whatever its name is bound to outside. -/
theorem evaluation_lexical_sample :
    sample.evaluate sampleSum = (sample.bindValue "i" (.number 5.0)).evaluate sampleSum ∧
      ¬ sampleSum.Free sample.functions "i" := by
  have hfree : ¬ sampleSum.Free sample.functions "i" := by
    have hnumber (x : Float) : ¬ (Equation.number x).Free sample.functions "i" :=
      Equation.not_free_of_parts (by simp) rfl
    rw [sampleSum, Equation.free_sum rfl]
    rintro (h | h | ⟨h, -⟩)
    · exact hnumber _ h
    · exact hnumber _ h
    · exact h rfl
  have h := evaluation_lexical sample (sample_builtFrom trivial)
  exact ⟨h.2.1 sampleSum "i" _ hfree, hfree⟩

end Scope

end QuantityCalculus
