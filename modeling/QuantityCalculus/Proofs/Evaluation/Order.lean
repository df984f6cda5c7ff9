import QuantityCalculus.Proofs.Evaluation.Subevaluation

/-!
The order of evaluation. The evaluation of a node comes to that of another tree once everything that
stands before it has been evaluated and accepted; if that one stops, so does the node.
-/
namespace QuantityCalculus

/-- An argument of this value does not keep the function from evaluating the next one. -/
def Callable.Takes (f : Callable) (v : Value) : Prop :=
  match f with
  | .builtin _ | .numeric _ => ∃ x, v = .number x
  | .hosted _ | .defined _ _ _ => True

/-- The number of arguments that a function checks; one of the host checks what it likes. -/
def Callable.arity? : Callable → Option Arity
  | .builtin b => some b.arity
  | .numeric f => some f.arity
  | .hosted _ => none
  | .defined parameters _ _ => some (.exactly parameters.length)

namespace Scope

/-- The numbers in cells from left to right, with the unit that they share. -/
def cellsOf (s : Scope) (trees : List Equation) : Outcome (Option CompoundUnit × List Float) :=
  MatrixLiteral.row none s.values (trees.map s.argument)

/-- The evaluation of a tree starts that of another and stops if it does: what comes before has been
accepted. -/
inductive ComesTo (s : Scope) : Equation → Scope → Equation → Prop where
  | block {child : Equation} : ComesTo s (.block child) s.deeper child
  | signed {operator : Sign} {operand : Equation} (h : operator ≠ .plusMinus) :
      ComesTo s (.signed operator operand) s.deeper operand
  | left {operator : BinaryOperator} {left right : Equation} (h : operator ≠ .plusMinus) :
      ComesTo s (.binary operator left right) s.deeper left
  | right {operator : BinaryOperator} {left right : Equation} {a : Value}
      (h : operator ≠ .plusMinus) (ha : s.deeper.evaluate left = .ok a) :
      ComesTo s (.binary operator left right) s.deeper right
  | cell {rows : List (List Equation)} {before after : List Equation} {tree : Equation}
      {unit : Option CompoundUnit} {xs : List Float} (hc : rows.flatten = before ++ tree :: after)
      (hb : s.deeper.cellsOf before = .ok (unit, xs)) : ComesTo s (.matrix rows) s.deeper tree
  | argument {name : String} {f : Callable} {arity : Arity} {before after : List Equation}
      {tree : Equation} (hf : s.function? name = some f) (hs : f.IsStrict)
      (ha : f.arity? = some arity) (hn : arity.admits (before ++ tree :: after).length = true)
      (hb : ∀ a ∈ before, ∃ v, s.deeper.evaluate a = .ok v ∧ f.Takes v) :
      ComesTo s (.call name (before ++ tree :: after)) s.deeper tree
  | first {name index : String} {first last term : Equation}
      (hf : s.function? name = some (.builtin .sum)) :
      ComesTo s (.call name [.reference index, first, last, term]) s.deeper first
  | last {name index : String} {first last term : Equation} {m : Int}
      (hf : s.function? name = some (.builtin .sum)) (hm : s.deeper.bound? first = some m) :
      ComesTo s (.call name [.reference index, first, last, term]) s.deeper last
  | term {name index : String} {first last term : Equation} {m n i : Int}
      (hf : s.function? name = some (.builtin .sum)) (hm : s.deeper.bound? first = some m)
      (hn : s.deeper.bound? last = some n) (hl : min m n ≤ i) (hu : i ≤ max m n)
      (hb : min m n < i → ∃ total, s.deeper.sumOf name [.reference index, first, last, term] index
        term (min m n) (i - 1) = .ok total) :
      ComesTo s (.call name [.reference index, first, last, term]) (s.deeper.atIndex index i) term
  | body {name : String} {parameters : List String} {body : Equation} {captured : Scope}
      {arguments : List Equation} {values : List Value}
      (hf : s.function? name = some (.defined parameters body captured))
      (hl : arguments.length = parameters.length)
      (hv : arguments.mapM s.deeper.evaluate = .ok values) :
      ComesTo s (.call name arguments) (captured.entered parameters values s.deeper) body

variable {s t : Scope} {e p : Equation} {stop : Stop}

theorem ComesTo.starts (h : s.ComesTo e t p) : s.Starts e t p := by
  cases h with
  | block => exact .block
  | signed h => exact .signed h
  | left h => exact .left h
  | right h => exact .right h
  | @cell rows before after _ _ _ hc =>
    have hm : p ∈ rows.flatten := by simp [hc]
    obtain ⟨row, hr, ht⟩ := List.mem_flatten.1 hm
    exact .cell hr ht
  | argument hf hs => exact .argument hf hs (by simp)
  | first hf => exact .first hf
  | last hf => exact .last hf
  | term hf hm hn hl hu => exact .term hf hm hn hl hu
  | body hf hl hv => exact .body hf hl hv

/-- The evaluation of a tree comes, in any number of steps, to that of another. -/
inductive LeadsTo (s : Scope) (e : Equation) : Scope → Equation → Prop where
  | refl : LeadsTo s e s e
  | tail {t u : Scope} {p q : Equation} (h : LeadsTo s e t p) (hc : t.ComesTo p u q) :
      LeadsTo s e u q

theorem LeadsTo.head {u : Scope} {q : Equation} (hc : s.ComesTo e t p) (h : t.LeadsTo p u q) :
    s.LeadsTo e u q := by
  induction h with
  | refl => exact .tail .refl hc
  | tail _ hq ih => exact .tail ih hq

theorem LeadsTo.visits (h : s.LeadsTo e t p) : s.Visits e t p := by
  induction h with
  | refl => exact .refl
  | tail _ hc ih => exact .tail ih hc.starts

theorem LeadsTo.limit (h : s.LeadsTo e t p) : t.limit = s.limit :=
  h.visits.limit

section Stopping

variable {name : String}

theorem run_builtin_eq_error {b : Builtin} {before after : List Equation} {tree : Equation}
    (hb : b ≠ .sum) (hn : b.arity.admits (before ++ tree :: after).length = true)
    (hx : ∀ a ∈ before, ∃ x, s.evaluate a = .ok (.number x)) (h : s.evaluate tree = .error stop) :
    (Callable.builtin b).run (s.callOf name (before ++ tree :: after)) = .error stop := by
  refine checked_eq_error.2 (.inr ⟨hn, ?_⟩)
  rcases b.rule_cases with ⟨apply, hr, -⟩ | rfl | rfl | rfl
  · rw [hr]
    exact Outcome.bind_eq_error.2
      (.inl (numbers_callOf_eq_error.2 ⟨before, tree, after, rfl, hx, .inl h⟩))
  · obtain ⟨radicand, hr⟩ := List.length_eq_one_iff.1 (Arity.admits_exactly.1 hn)
    obtain ⟨rfl, rfl, rfl⟩ : before = [] ∧ tree = radicand ∧ after = [] := by
      simpa [List.append_eq_singleton_iff] using hr
    change Radical.squareRoot (s.callOf name [tree]) = .error stop
    rw [Radical.squareRoot_eq (s.arguments_callOf name [tree]), valueOf_callOf, h]
    rfl
  · change Radical.root (s.callOf name (before ++ tree :: after)) = .error stop
    obtain ⟨index, radicand, hr⟩ := List.length_eq_two.1 (Arity.admits_exactly.1 hn)
    rw [hr, Radical.root_eq (s.arguments_callOf name [index, radicand])]
    simp only [valueOf_callOf]
    cases before with
    | nil =>
      obtain ⟨rfl, -⟩ := List.cons.inj hr
      rw [h]
      rfl
    | cons first rest =>
      obtain ⟨rfl, hr⟩ := List.cons.inj hr
      obtain ⟨rfl, rfl, rfl⟩ : rest = [] ∧ tree = radicand ∧ after = [] := by
        simpa [List.append_eq_singleton_iff] using hr
      obtain ⟨k, hk⟩ := hx first (by simp)
      rw [hk, h]
      rfl
  · exact absurd rfl hb

theorem run_eq_error_of_argument {f : Callable} {arity : Arity} {before after : List Equation}
    {tree : Equation} (hs : f.IsStrict) (ha : f.arity? = some arity)
    (hn : arity.admits (before ++ tree :: after).length = true)
    (hb : ∀ a ∈ before, ∃ v, s.evaluate a = .ok v ∧ f.Takes v)
    (h : s.evaluate tree = .error stop) :
    f.run (s.callOf name (before ++ tree :: after)) = .error stop := by
  cases f with
  | builtin b =>
    obtain rfl : b.arity = arity := Option.some.inj ha
    refine run_builtin_eq_error hs hn ?_ h
    intro a hm
    obtain ⟨_, hv, x, rfl⟩ := hb a hm
    exact ⟨x, hv⟩
  | numeric f =>
    obtain rfl : f.arity = arity := Option.some.inj ha
    refine run_numeric_eq_error.2 (.inr ⟨hn, .inl (numbers_callOf_eq_error.2 ?_)⟩)
    refine ⟨before, tree, after, rfl, ?_, .inl h⟩
    intro a hm
    obtain ⟨_, hv, x, rfl⟩ := hb a hm
    exact ⟨x, hv⟩
  | hosted run => exact hs.elim
  | defined parameters body captured =>
    obtain rfl : Arity.exactly parameters.length = arity := Option.some.inj ha
    have hl := Arity.admits_exactly.1 hn
    refine run_defined_eq_error.2 (.inr ⟨hl, .inl (Outcome.mapM_eq_error.2 ?_)⟩)
    refine ⟨before, tree, after, rfl, ?_, h⟩
    intro a hm
    obtain ⟨v, hv, -⟩ := hb a hm
    exact ⟨v, hv⟩

theorem run_sum_eq_error_of_sumOf {index : String} {first last term : Equation} {m n : Int}
    (hm : s.bound? first = some m) (hn : s.bound? last = some n)
    (h : s.sumOf name [.reference index, first, last, term] index term (min m n) (max m n) =
      .error stop) :
    (Callable.builtin .sum).run (s.callOf name [.reference index, first, last, term]) =
      .error stop := by
  refine run_sum.trans (checked_eq_error.2 (.inr ⟨rfl, ?_⟩))
  refine Outcome.bind_eq_error.2 (.inr ⟨m, bound_callOf.2 hm, ?_⟩)
  exact Outcome.bind_eq_error.2 (.inr ⟨n, bound_callOf.2 hn, h⟩)

end Stopping

theorem ComesTo.evaluateNode_eq_error (h : s.ComesTo e t p) (hp : t.evaluate p = .error stop) :
    s.deeper.evaluateNode e = .error stop := by
  cases h with
  | block => exact hp
  | @signed operator _ ho =>
    cases operator with
    | positive => exact hp
    | negative => exact Outcome.map_eq_error.2 hp
    | plusMinus => exact absurd rfl ho
  | left ho =>
    rw [evaluateNode, if_neg ho]
    exact Outcome.bind_eq_error.2 (.inl hp)
  | right ho ha =>
    rw [evaluateNode, if_neg ho]
    exact Outcome.bind_eq_error.2 (.inr ⟨_, ha, Outcome.bind_eq_error.2 (.inl hp)⟩)
  | @cell rows before after _ unit xs hc hb =>
    refine MatrixLiteral.value_eq_error.2 (.inl (MatrixLiteral.rows_eq_error.2 ?_))
    rw [← List.map_flatten, hc, List.map_append, List.map_cons]
    refine MatrixLiteral.row_eq_error.2 ⟨_, _, _, unit, xs, rfl, hb, ?_⟩
    exact MatrixLiteral.cell_eq_error.2 (.inl (by rwa [value_argument]))
  | argument hf hs ha hn hb =>
    rw [evaluateNode_call hf]
    exact run_eq_error_of_argument hs ha hn hb hp
  | first hf =>
    rw [evaluateNode_call hf, run_sum]
    refine checked_eq_error.2 (.inr ⟨rfl, Outcome.bind_eq_error.2 (.inl ?_)⟩)
    exact Series.bound_eq_error.2 (.inl (by rwa [valueOf_callOf]))
  | last hf hm =>
    rw [evaluateNode_call hf, run_sum]
    refine checked_eq_error.2 (.inr ⟨rfl, ?_⟩)
    refine Outcome.bind_eq_error.2 (.inr ⟨_, bound_callOf.2 hm, ?_⟩)
    exact Outcome.bind_eq_error.2 (.inl (Series.bound_eq_error.2 (.inl (by rwa [valueOf_callOf]))))
  | @term name index first last term m n i hf hm hn hl hu hb =>
    rw [evaluateNode_call hf]
    apply run_sum_eq_error_of_sumOf hm hn
    apply Series.between_eq_error_of_le hl hu
    obtain rfl | hlt : min m n = i ∨ min m n < i := by omega
    · rw [Series.between_self]
      exact hp
    · obtain ⟨total, ht⟩ := hb hlt
      rw [Series.between_last hlt]
      exact Outcome.bind_eq_error.2 (.inr ⟨total, ht, Outcome.bind_eq_error.2 (.inl hp)⟩)
  | body hf hl hv =>
    rw [evaluateNode_call hf]
    exact run_defined_eq_error.2 (.inr ⟨hl, .inr ⟨_, hv, hp⟩⟩)

/-- What stops an evaluation stops every evaluation that comes to it. -/
theorem ComesTo.evaluate_eq_error (h : s.ComesTo e t p) (hr : s.HasRoom)
    (hp : t.evaluate p = .error stop) : s.evaluate e = .error stop :=
  Scope.evaluate_eq_error.2 (.inr ⟨hr, h.evaluateNode_eq_error hp⟩)

end Scope

end QuantityCalculus
