import QuantityCalculus.Proofs.Evaluation.Subevaluation

/-!
Evaluations of one tree in two scopes. What a node comes to depends on the evaluations that it
starts and on nothing else, so scopes in which those agree have the same outcome. A stop of a kind
`Q` of the first evaluation is allowed to be missing in the second.
-/
namespace QuantityCalculus.Scope

variable {Q : Stop → Prop} {s t : Scope} {name : String} {arguments : List Equation}

theorem checkArity_agrees (arity : Arity) :
    ((s.callOf name arguments).checkArity arity).AgreesUnless Q
      ((t.callOf name arguments).checkArity arity) := by
  left
  simp only [Call.checkArity, arguments_callOf, List.length_map]
  rfl

theorem numbers_agrees
    (h : ∀ a ∈ arguments, (s.evaluate a).AgreesUnless Q (t.evaluate a)) :
    (s.callOf name arguments).numbers.AgreesUnless Q (t.callOf name arguments).numbers := by
  simp only [Call.numbers, arguments_callOf, List.mapM_map]
  refine Outcome.mapM_agreesUnless fun a ha => ?_
  simp only [Function.comp_apply, Call.bareNumber, valueOf_callOf]
  exact (h a ha).bind fun v _ => .refl _

theorem squareRootOf_callOf (s t : Scope) (name : String) (arguments : List Equation) (v : Value) :
    Radical.squareRootOf (s.callOf name arguments) v =
      Radical.squareRootOf (t.callOf name arguments) v := by
  simp only [Radical.squareRootOf, Radical.rooted, blameArgument_callOf, name_callOf]

theorem rootOf_callOf (s t : Scope) (name : String) (arguments : List Equation) (k : Float)
    (v : Value) :
    Radical.rootOf (s.callOf name arguments) k v =
      Radical.rootOf (t.callOf name arguments) k v := by
  simp only [Radical.rootOf, Radical.rooted, blameArgument_callOf, name_callOf]

theorem squareRoot_agrees {radicand : Equation}
    (h : (s.evaluate radicand).AgreesUnless Q (t.evaluate radicand)) :
    (Radical.squareRoot (s.callOf name [radicand])).AgreesUnless Q
      (Radical.squareRoot (t.callOf name [radicand])) := by
  rw [Radical.squareRoot_eq (s.arguments_callOf name [radicand]),
    Radical.squareRoot_eq (t.arguments_callOf name [radicand]), valueOf_callOf, valueOf_callOf]
  exact h.bind fun v _ => .inl (squareRootOf_callOf s t name _ v)

theorem root_agrees {index radicand : Equation}
    (hi : (s.evaluate index).AgreesUnless Q (t.evaluate index))
    (h : (s.evaluate radicand).AgreesUnless Q (t.evaluate radicand)) :
    (Radical.root (s.callOf name [index, radicand])).AgreesUnless Q
      (Radical.root (t.callOf name [index, radicand])) := by
  rw [Radical.root_eq (s.arguments_callOf name [index, radicand]),
    Radical.root_eq (t.arguments_callOf name [index, radicand])]
  simp only [valueOf_callOf, blameArgument_callOf, name_callOf]
  refine hi.bind fun w _ => ?_
  cases w.number? with
  | none => exact .refl _
  | some k => exact h.bind fun v _ => .inl (rootOf_callOf s t name _ k v)

theorem bound_agrees {place : Nat} {cause : String → Cause} {e : Equation}
    (h : (s.evaluate e).AgreesUnless Q (t.evaluate e)) :
    (Series.bound (s.callOf name arguments) place cause (s.argument e)).AgreesUnless Q
      (Series.bound (t.callOf name arguments) place cause (t.argument e)) := by
  simp only [Series.bound, valueOf_callOf, blameArgument_callOf, name_callOf]
  exact h.bind fun v _ => .refl _

section Terms

variable {index : String} {term : Equation}
  (h : ∀ i, ((s.atIndex index i).evaluate term).AgreesUnless Q ((t.atIndex index i).evaluate term))

include h

theorem accumulate_agrees (count : Nat) (i : Int) (total : Value) :
    (Series.accumulate (s.callOf name arguments) index (s.argument term) count i
      total).AgreesUnless Q
      (Series.accumulate (t.callOf name arguments) index (t.argument term) count i total) := by
  induction count generalizing i total with
  | zero => exact .refl _
  | succ count ih =>
    simp only [Series.accumulate, termAt_callOf]
    refine (h i).bind fun v _ => ?_
    refine Outcome.AgreesUnless.bind (.refl _) fun w _ => ?_
    exact ih (i + 1) w

theorem sumOf_agrees (low high : Int) :
    (s.sumOf name arguments index term low high).AgreesUnless Q
      (t.sumOf name arguments index term low high) := by
  unfold sumOf Series.between
  split
  · simp only [termAt_callOf]
    exact (h low).bind fun v _ => accumulate_agrees h _ _ v
  · exact .refl _

end Terms

theorem series_agrees {head first last term : Equation}
    (h : ∀ index, head = .reference index →
      (s.evaluate first).AgreesUnless Q (t.evaluate first) ∧
      (s.evaluate last).AgreesUnless Q (t.evaluate last) ∧
      ∀ i, ((s.atIndex index i).evaluate term).AgreesUnless Q
        ((t.atIndex index i).evaluate term)) :
    (Series.series (s.callOf name [head, first, last, term])).AgreesUnless Q
      (Series.series (t.callOf name [head, first, last, term])) := by
  cases head with
  | reference index =>
    obtain ⟨hfirst, hlast, hterm⟩ := h index rfl
    refine (bound_agrees hfirst).bind fun m _ => (bound_agrees hlast).bind fun n _ => ?_
    exact sumOf_agrees hterm _ _
  | _ => exact .refl _

theorem run_builtin_agrees {b : Builtin} (hb : b ≠ .sum)
    (h : ∀ a ∈ arguments, (s.evaluate a).AgreesUnless Q (t.evaluate a)) :
    ((Callable.builtin b).run (s.callOf name arguments)).AgreesUnless Q
      ((Callable.builtin b).run (t.callOf name arguments)) := by
  refine (checkArity_agrees b.arity).bind fun _ hc => ?_
  have ha := Call.checkArity_eq_ok.1 hc
  rw [arguments_callOf, List.length_map] at ha
  rcases b.rule_cases with ⟨apply, hr, -⟩ | rfl | rfl | rfl
  · rw [hr]
    exact (numbers_agrees h).bind fun xs _ => .refl _
  · obtain ⟨radicand, rfl⟩ := List.length_eq_one_iff.1 (Arity.admits_exactly.1 ha)
    exact squareRoot_agrees (h _ (by simp))
  · obtain ⟨index, radicand, rfl⟩ := List.length_eq_two.1 (Arity.admits_exactly.1 ha)
    exact root_agrees (h _ (by simp)) (h _ (by simp))
  · exact absurd rfl hb

theorem run_numeric_agrees {f : NumericFunction}
    (h : ∀ a ∈ arguments, (s.evaluate a).AgreesUnless Q (t.evaluate a)) :
    ((Callable.numeric f).run (s.callOf name arguments)).AgreesUnless Q
      ((Callable.numeric f).run (t.callOf name arguments)) := by
  refine (checkArity_agrees f.arity).bind fun _ _ => (numbers_agrees h).bind fun xs _ => ?_
  simp only [blameArgument_callOf, name_callOf]
  exact .refl _

theorem run_sum_agrees
    (h : ∀ index first last term, arguments = [.reference index, first, last, term] →
      (s.evaluate first).AgreesUnless Q (t.evaluate first) ∧
      (s.evaluate last).AgreesUnless Q (t.evaluate last) ∧
      ∀ i, ((s.atIndex index i).evaluate term).AgreesUnless Q
        ((t.atIndex index i).evaluate term)) :
    ((Callable.builtin .sum).run (s.callOf name arguments)).AgreesUnless Q
      ((Callable.builtin .sum).run (t.callOf name arguments)) := by
  rw [run_sum, run_sum]
  refine (checkArity_agrees (.exactly 4)).bind fun _ hc => ?_
  have ha := Call.checkArity_eq_ok.1 hc
  rw [arguments_callOf, List.length_map] at ha
  obtain ⟨head, first, last, term, rfl⟩ := List.length_eq_four.1 (Arity.admits_exactly.1 ha)
  refine series_agrees fun index hi => ?_
  subst hi
  exact h index first last term rfl

theorem run_defined_agrees {parameters : List String} {body : Equation} {captured : Scope}
    (h : ∀ a ∈ arguments, (s.evaluate a).AgreesUnless Q (t.evaluate a))
    (hbody : ∀ values, arguments.mapM s.evaluate = .ok values →
      ((captured.entered parameters values s).evaluate body).AgreesUnless Q
        ((captured.entered parameters values t).evaluate body)) :
    ((Callable.defined parameters body captured).run (s.callOf name arguments)).AgreesUnless Q
      ((Callable.defined parameters body captured).run (t.callOf name arguments)) := by
  rw [Callable.run_defined, Callable.run_defined]
  refine (checkArity_agrees _).bind fun _ _ => ?_
  exact (Outcome.mapM_agreesUnless h).bind hbody

section Cells

theorem cell_agrees {expected : Option CompoundUnit} {tree : Equation}
    (h : (s.evaluate tree).AgreesUnless Q (t.evaluate tree)) :
    (MatrixLiteral.cell expected s.values (s.argument tree)).AgreesUnless Q
      (MatrixLiteral.cell expected t.values (t.argument tree)) := by
  simp only [MatrixLiteral.cell, value_argument]
  exact h.bind fun v _ => .refl _

theorem row_agrees {expected : Option CompoundUnit} {row : List Equation}
    (h : ∀ tree ∈ row, (s.evaluate tree).AgreesUnless Q (t.evaluate tree)) :
    (MatrixLiteral.row expected s.values (row.map s.argument)).AgreesUnless Q
      (MatrixLiteral.row expected t.values (row.map t.argument)) := by
  induction row generalizing expected with
  | nil => exact .refl _
  | cons tree rest ih =>
    refine (cell_agrees (h tree List.mem_cons_self)).bind fun ux _ => ?_
    refine (ih fun p hp => h p (List.mem_cons_of_mem _ hp)).bind fun uxs _ => ?_
    exact .refl _

theorem rows_agrees {expected : Option CompoundUnit} {rows : List (List Equation)}
    (h : ∀ row ∈ rows, ∀ tree ∈ row, (s.evaluate tree).AgreesUnless Q (t.evaluate tree)) :
    (MatrixLiteral.rows expected s.values (rows.map fun row => row.map s.argument)).AgreesUnless Q
      (MatrixLiteral.rows expected t.values (rows.map fun row => row.map t.argument)) := by
  induction rows generalizing expected with
  | nil => exact .refl _
  | cons row rest ih =>
    refine (row_agrees (h row List.mem_cons_self)).bind fun uxs _ => ?_
    refine (ih fun r hr => h r (List.mem_cons_of_mem _ hr)).bind fun uxss _ => ?_
    exact .refl _

end Cells

section Node

variable {e : Equation}
  (hv : ∀ name, e = .reference name → s.value? name = t.value? name)
  (hf : ∀ name arguments, e = .call name arguments → s.function? name = t.function? name)
  (hosted : ∀ name run, s.function? name ≠ some (.hosted run))
  (hp : ∀ p, s.Starts e s.deeper p →
    (s.deeper.evaluate p).AgreesUnless Q (t.deeper.evaluate p))
  (hterm : ∀ name index first last term i,
    e = .call name [.reference index, first, last, term] →
    s.function? name = some (.builtin .sum) →
    ((s.deeper.atIndex index i).evaluate term).AgreesUnless Q
      ((t.deeper.atIndex index i).evaluate term))
  (hbody : ∀ name arguments parameters body captured values, e = .call name arguments →
    s.function? name = some (.defined parameters body captured) →
    arguments.mapM s.deeper.evaluate = .ok values →
    ((captured.entered parameters values s.deeper).evaluate body).AgreesUnless Q
      ((captured.entered parameters values t.deeper).evaluate body))

include hv hf hosted hp hterm hbody

/-- Nodes agree in two scopes in which they find the same names and start agreeing evaluations. -/
theorem evaluateNode_agrees :
    (s.deeper.evaluateNode e).AgreesUnless Q (t.deeper.evaluateNode e) := by
  cases e with
  | reference name =>
    simp only [evaluateNode, value?_deeper, hv name rfl]
    exact .refl _
  | block child => exact hp child .block
  | signed operator operand =>
    cases operator with
    | positive => exact hp operand (.signed (by simp))
    | negative => exact (hp operand (.signed (by simp))).map _
    | plusMinus => exact .refl _
  | binary operator left right =>
    by_cases ho : operator = .plusMinus
    · simp only [evaluateNode, if_pos ho]
      exact .refl _
    · simp only [evaluateNode, if_neg ho]
      exact (hp left (.left ho)).bind fun a _ => (hp right (.right ho)).bind fun b _ => .refl _
  | call name arguments =>
    simp only [evaluateNode, function?_deeper, ← hf name arguments rfl]
    cases hn : s.function? name with
    | none => exact .refl _
    | some f =>
      cases f with
      | builtin b =>
        by_cases hb : b = .sum
        · subst hb
          refine run_sum_agrees fun index first last term ha => ?_
          subst ha
          exact ⟨hp first (.first hn), hp last (.last hn),
            fun i => hterm name index first last term i rfl hn⟩
        · exact run_builtin_agrees hb fun a ha => hp a (.argument hn hb ha)
      | numeric f => exact run_numeric_agrees fun a ha => hp a (.argument hn trivial ha)
      | hosted run => exact absurd hn (hosted name run)
      | defined parameters body captured =>
        refine run_defined_agrees (fun a ha => hp a (.argument hn trivial ha)) ?_
        intro values hvalues
        exact hbody name arguments parameters body captured values rfl hn hvalues
  | matrix rows =>
    refine (rows_agrees fun row hr tree ht => hp tree (.cell hr ht)).bind fun uxss _ => ?_
    exact .refl _
  | _ => exact .refl _

end Node

end QuantityCalculus.Scope
