import QuantityCalculus.Proofs.Evaluation.Correspondence

/-!
Defined functions mean substitution. A call has the value of the body in which the arguments stand
in the places of the parameters, where the caller binds the other names of the body as the captured
scope does. A sum is left out, as it binds a variable of its own.
-/
namespace QuantityCalculus

namespace Equation

mutual

/-- The tree with all its replaced variables gone at once. -/
def substitute (replacements : Bindings Equation) : Equation → Equation
  | .number x => .number x
  | .reference name => (replacements.find? name).getD (.reference name)
  | .block a => .block (a.substitute replacements)
  | .signed operator a => .signed operator (a.substitute replacements)
  | .binary operator a b =>
    .binary operator (a.substitute replacements) (b.substitute replacements)
  | .comparison relation a b =>
    .comparison relation (a.substitute replacements) (b.substitute replacements)
  | .call name arguments => .call name (substituteAll replacements arguments)
  | .matrix rows => .matrix (substituteRows replacements rows)
  | .missingOperand => .missingOperand
  | .missingOperator a b => .missingOperator (a.substitute replacements) (b.substitute replacements)
  | .missingSign a => .missingSign (a.substitute replacements)
  | .missingFunction arguments => .missingFunction (substituteAll replacements arguments)
  | .unreadable token => .unreadable token

def substituteAll (replacements : Bindings Equation) : List Equation → List Equation
  | [] => []
  | tree :: rest => tree.substitute replacements :: substituteAll replacements rest

def substituteRows (replacements : Bindings Equation) :
    List (List Equation) → List (List Equation)
  | [] => []
  | row :: rest => substituteAll replacements row :: substituteRows replacements rest

end

variable {replacements : Bindings Equation} {R : Equation → Equation → Prop}

theorem forall₂_substituteAll {trees : List Equation}
    (h : ∀ p ∈ trees, R p (p.substitute replacements)) :
    List.Forall₂ R trees (substituteAll replacements trees) := by
  induction trees with
  | nil => exact .nil
  | cons tree rest ih =>
    exact .cons (h tree List.mem_cons_self) (ih fun p hp => h p (List.mem_cons_of_mem _ hp))

theorem forall₂_substituteRows {rows : List (List Equation)}
    (h : ∀ row ∈ rows, ∀ p ∈ row, R p (p.substitute replacements)) :
    List.Forall₂ (List.Forall₂ R) rows (substituteRows replacements rows) := by
  induction rows with
  | nil => exact .nil
  | cons row rest ih =>
    have hrow := forall₂_substituteAll (h row List.mem_cons_self)
    exact .cons hrow (ih fun r hr => h r (List.mem_cons_of_mem _ hr))

theorem corresponds_substitute {e : Equation}
    (hn : ∀ name, e = .reference name → replacements.find? name = none)
    (h : ∀ p ∈ e.parts, R p (p.substitute replacements)) :
    e.Corresponds R (e.substitute replacements) := by
  cases e with
  | number x => exact .number x
  | reference name =>
    rw [substitute, hn name rfl]
    exact .reference name
  | block a => exact .block (h a (by simp [parts]))
  | signed operator a => exact .signed operator (h a (by simp [parts]))
  | binary operator a b =>
    exact .binary operator (h a (by simp [parts])) (h b (by simp [parts]))
  | comparison relation a b =>
    exact .comparison relation (h a (by simp [parts])) (h b (by simp [parts]))
  | call name arguments => exact .call name (forall₂_substituteAll h)
  | matrix rows =>
    refine .matrix (forall₂_substituteRows fun row hr p hp => ?_)
    exact h p (List.mem_flatten_of_mem hr hp)
  | missingOperand => exact .missingOperand
  | missingOperator a b => exact .missingOperator (h a (by simp [parts])) (h b (by simp [parts]))
  | missingSign a => exact .missingSign (h a (by simp [parts]))
  | missingFunction arguments => exact .missingFunction (forall₂_substituteAll h)
  | unreadable token => exact .unreadable token

end Equation

/-- Of two lists that are bound to the same names, a name finds its places or the bindings before
them. -/
theorem Bindings.find?_insertAll_zip {α β : Type} {R : α → β → Prop} {names : List String}
    {as : List α} {bs : List β} (h : List.Forall₂ R as bs) (hl : names.length = as.length)
    (a : Bindings α) (b : Bindings β) (name : String) :
    (∃ x y, (a.insertAll (names.zip as)).find? name = some x ∧
        (b.insertAll (names.zip bs)).find? name = some y ∧ R x y) ∨
      name ∉ names ∧ (a.insertAll (names.zip as)).find? name = a.find? name ∧
        (b.insertAll (names.zip bs)).find? name = b.find? name := by
  induction h generalizing names a b with
  | nil =>
    obtain rfl : names = [] := List.length_eq_zero_iff.1 hl
    exact .inr ⟨by simp, rfl, rfl⟩
  | @cons x y as bs hxy _ ih =>
    cases names with
    | nil => cases hl
    | cons first names =>
      simp only [List.zip_cons_cons, insertAll_cons]
      -- A later place of the same name hides this one.
      rcases ih (Nat.succ.inj hl) (a.insert first x) (b.insert first y) with
        hfound | ⟨hn, ha, hb⟩
      · exact .inl hfound
      · rw [ha, hb, find?_insert, find?_insert]
        by_cases hf : first = name
        · rw [if_pos hf, if_pos hf]
          exact .inl ⟨x, y, rfl, rfl, hxy⟩
        · rw [if_neg hf, if_neg hf]
          exact .inr ⟨by simp [hn, Ne.symm hf], rfl, rfl⟩

namespace Scope

variable {s t : Scope} {replacements : Bindings Equation} {e p : Equation}

/-- The second scope has for the replacements what the first one has for their variables. All other
names in the tree are bound alike, and no sum is called. -/
structure Rendered (s t : Scope) (replacements : Bindings Equation) (e : Equation) : Prop where
  replaced : ∀ name p, replacements.find? name = some p →
    ∃ v, s.value? name = some v ∧ t.evaluate p = .ok v
  values : ∀ name, (Equation.reference name).Within e → replacements.find? name = none →
    s.value? name = t.value? name
  functions : ∀ name arguments, (Equation.call name arguments).Within e →
    s.function? name = t.function? name
  sumless : ∀ name arguments, (Equation.call name arguments).Within e →
    s.function? name ≠ some (.builtin .sum)

theorem Rendered.part (h : s.Rendered t replacements e) (hp : p ∈ e.parts) :
    s.Rendered t replacements p := by
  have hwithin {q : Equation} (hq : q.Within p) : q.Within e :=
    hq.trans (Equation.within_of_mem_parts hp)
  refine ⟨h.replaced, ?_, ?_, ?_⟩
  · intro name hn
    exact h.values name (hwithin hn)
  · intro name arguments hc
    exact h.functions name arguments (hwithin hc)
  · intro name arguments hc
    exact h.sumless name arguments (hwithin hc)

theorem Rendered.evaluate_akin {γ : Type} {kind : Cause → γ} (h : s.Rendered t replacements e)
    (hs : s.Unhosted) (ht : t.Unhosted) (hls : s.limit = none) (hlt : t.limit = none) :
    (s.evaluate e).Akin kind (t.evaluate (e.substitute replacements)) := by
  induction s, e using below_induction with
  | step s e ih =>
    -- The trees part at the replaced variables only; everywhere else they have one form.
    by_cases hr : ∃ name p, e = .reference name ∧ replacements.find? name = some p
    · obtain ⟨name, p, rfl, hp⟩ := hr
      obtain ⟨v, hv, hpv⟩ := h.replaced name p hp
      rw [evaluate_eq_node hls, evaluateNode, value?_deeper, hv, Equation.substitute, hp,
        Option.getD_some, hpv]
      exact .refl _
    · have hn (name : String) (he : e = .reference name) : replacements.find? name = none := by
        rw [Option.eq_none_iff_forall_ne_some]
        intro p hp
        exact hr ⟨name, p, he, hp⟩
      have hform : e.Corresponds (fun p q => (s.evaluate p).Akin kind (t.evaluate q))
          (e.substitute replacements) := by
        refine Equation.corresponds_substitute hn fun p hp => ?_
        exact ih s p (.part rfl hp) (h.part hp) hs hls
      apply Scope.evaluate_akin hs ht hls hlt hform
      · rintro name rfl
        exact h.values name (.refl _) (hn name rfl)
      · rintro name arguments rfl
        exact h.functions name arguments (.refl _)
      · intro p q hpq
        exact hpq
      · rintro name arguments p q index i rfl hf
        exact absurd hf (h.sumless name arguments (.refl _))
      · rintro name p q rest rest' rfl - hf
        exact absurd hf (h.sumless name _ (.refl _))

theorem exists_values {arguments : List Equation}
    (h : ∀ a ∈ arguments, ∃ v, s.evaluate a = .ok v) :
    ∃ values, arguments.mapM s.evaluate = .ok values := by
  cases hm : arguments.mapM s.evaluate with
  | ok values => exact ⟨values, rfl⟩
  | error stop =>
    obtain ⟨before, a, after, rfl, -, ha⟩ := Outcome.mapM_eq_error.1 hm
    obtain ⟨v, hv⟩ := h a (by simp)
    cases ha.symm.trans hv

/-- A call whose arguments have values is the evaluation of the body. -/
theorem evaluate_call_eq {name : String} {parameters : List String} {body : Equation}
    {captured : Scope} {arguments : List Equation} {values : List Value} (hl : s.limit = none)
    (hf : s.function? name = some (.defined parameters body captured))
    (hn : arguments.length = parameters.length)
    (hv : arguments.mapM s.deeper.evaluate = .ok values) :
    s.evaluate (.call name arguments) =
      (captured.entered parameters values s.deeper).evaluate body := by
  have hc : (s.deeper.callOf name arguments).checkArity (.exactly parameters.length) = .ok () := by
    rw [Call.checkArity_eq_ok, Arity.admits_exactly, arguments_callOf, List.length_map, hn]
  rw [evaluate_eq_node hl, evaluateNode_call hf, Callable.run_defined, hc, hv]
  rfl

/-- What a call binds for the parameters, the caller has for the arguments. -/
theorem entered_rendered {captured : Scope} {parameters : List String} {body : Equation}
    {arguments : List Equation} {vs : List Value} (caller : Scope)
    (hn : arguments.length = parameters.length)
    (hvs : arguments.mapM s.evaluate = .ok vs)
    (values : ∀ x, (Equation.reference x).Within body → x ∉ parameters →
      s.value? x = captured.value? x)
    (functions : ∀ f inner, (Equation.call f inner).Within body →
      s.function? f = captured.function? f)
    (sumless : ∀ f inner, (Equation.call f inner).Within body →
      captured.function? f ≠ some (.builtin .sum)) :
    (captured.entered parameters vs caller).Rendered s (.ofList (parameters.zip arguments))
      body := by
  have hboth : List.Forall₂ (fun v a => s.evaluate a = .ok v) vs arguments :=
    (Outcome.mapM_eq_ok.1 hvs).flip
  have hlength : parameters.length = vs.length := hn.symm.trans hboth.length_eq.symm
  have hlookup := Bindings.find?_insertAll_zip hboth hlength captured.values .empty
  refine ⟨?_, ?_, ?_, sumless⟩
  · intro x p hp
    rcases hlookup x with ⟨v, q, hv, hq, hqv⟩ | ⟨-, -, hnone⟩
    · obtain rfl : q = p := Option.some.inj (hq.symm.trans hp)
      exact ⟨v, hv, hqv⟩
    · cases hnone.symm.trans hp
  · intro x hx hp
    rcases hlookup x with ⟨v, q, -, hq, -⟩ | ⟨hfree, hv, -⟩
    · cases hp.symm.trans hq
    · exact hv.trans (values x hx hfree).symm
  · intro f inner hc
    exact (functions f inner hc).symm

/-- A call of a defined function, whose arguments have values, comes to what the body comes to in
the scope of the caller when the arguments stand in it for the parameters, if that scope has for
the other names of the body what the captured scope has, and if no call in the body is a sum. -/
theorem evaluation_substitutive (s captured : Scope) (name : String) (parameters : List String)
    (body : Equation) (arguments : List Equation) (hs : s.Unhosted) (hl : s.limit = none)
    (hf : s.function? name = some (.defined parameters body captured))
    (hn : arguments.length = parameters.length)
    (values : ∀ x, (Equation.reference x).Within body → x ∉ parameters →
      s.value? x = captured.value? x)
    (functions : ∀ f inner, (Equation.call f inner).Within body →
      s.function? f = captured.function? f)
    (sumless : ∀ f inner, (Equation.call f inner).Within body →
      captured.function? f ≠ some (.builtin .sum))
    (ha : ∀ a ∈ arguments, ∃ v, s.evaluate a = .ok v) :
    (s.evaluate (.call name arguments)).Akin id
      (s.evaluate (body.substitute (.ofList (parameters.zip arguments)))) := by
  obtain ⟨vs, hvs⟩ := exists_values ha
  have hdeeper : arguments.mapM s.deeper.evaluate = .ok vs := by
    rw [funext (evaluate_deeper hs hl), hvs]
  have hrendered := entered_rendered s.deeper hn hvs values functions sumless
  rw [evaluate_call_eq hl hf hn hdeeper]
  exact hrendered.evaluate_akin ((hs.captured hf).congr rfl) hs hl hl

/-- The length is shared among two. -/
theorem evaluation_substitutive_sample :
    ((sample.withLimit none).evaluate (.call "share" [.reference "length", .number 2.0])).Akin id
      ((sample.withLimit none).evaluate
        (.binary .fraction (.reference "length") (.number 2.0))) := by
  have hs : (sample.withLimit none).Unhosted := (sample_builtFrom trivial).congr rfl rfl
  have hwithin {p : Equation}
      (h : p.Within (.binary .fraction (.reference "x") (.reference "n"))) :
      p = .binary .fraction (.reference "x") (.reference "n") ∨ p = .reference "x" ∨
        p = .reference "n" := by
    rcases h.cases_head with rfl | ⟨q, hq, hp⟩
    · exact .inl rfl
    · have hleaf : q = .reference "x" ∨ q = .reference "n" := by
        simpa [Equation.parts] using hq
      rcases hp.cases_head with rfl | ⟨r, hr, -⟩
      · exact .inr hleaf
      · rcases hleaf with rfl | rfl <;> cases hr
  have hvalues : ∀ a ∈ [.reference "length", .number 2.0],
      ∃ v, (sample.withLimit none).evaluate a = .ok v := by
    intro a ha
    rcases List.mem_pair.1 ha with rfl | rfl
    · exact ⟨_, rfl⟩
    · exact ⟨_, rfl⟩
  refine evaluation_substitutive (sample.withLimit none) .empty "share" ["x", "n"]
    (.binary .fraction (.reference "x") (.reference "n")) [.reference "length", .number 2.0] hs rfl
    rfl rfl ?_ ?_ ?_ hvalues
  · intro x hx hn
    rcases hwithin hx with h | h | h <;> simp_all
  · intro f inner hc
    rcases hwithin hc with h | h | h <;> cases h
  · intro f inner hc
    rcases hwithin hc with h | h | h <;> cases h

end Scope

end QuantityCalculus
