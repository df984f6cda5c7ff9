import QuantityCalculus.Proofs.Equation.Height
import QuantityCalculus.Proofs.Evaluation.Subevaluation
import Mathlib.Data.Int.Interval
import Mathlib.Data.Set.Finite.Lattice

/-!
Evaluations end. An evaluation calls itself for parts of its tree and for the bodies of defined
functions, which may be larger than the tree but see none but functions captured before them. So a
budget of nested calls that covers the heights of the tree and of the bodies that are nested in the
scope is never spent, and the calls that come about are finitely many.
-/
namespace QuantityCalculus

mutual

/-- The greatest sum of heights of bodies, each in the scope that the one before it captured. -/
def Callable.nesting : Callable → Nat
  | .builtin _ | .numeric _ | .hosted _ => 0
  | .defined _ body captured => body.height + captured.nesting

def Scope.nesting : Scope → Nat
  | ⟨_, functions, _, _⟩ => nestingOf functions

def nestingOf : Bindings Callable → Nat
  | .empty => 0
  | .bind _ function rest => max function.nesting (nestingOf rest)

end

theorem nesting_le_nestingOf {functions : Bindings Callable} {name : String} {f : Callable}
    (h : functions.find? name = some f) : f.nesting ≤ nestingOf functions := by
  induction functions with
  | empty => cases h
  | bind bound g rest ih =>
    rw [nestingOf]
    rw [Bindings.find?] at h
    split at h
    · obtain rfl := Option.some.inj h
      exact Nat.le_max_left _ _
    · exact Nat.le_trans (ih h) (Nat.le_max_right _ _)

namespace Scope

variable {s t : Scope} {e : Equation}

theorem nesting_eq (s : Scope) : s.nesting = nestingOf s.functions := by
  cases s
  rfl

/-- A captured scope has less in it than the scope in which its function is bound. -/
theorem nesting_of_defined {name : String} {parameters : List String} {body : Equation}
    {captured : Scope} (h : s.function? name = some (.defined parameters body captured)) :
    body.height + captured.nesting ≤ s.nesting := by
  rw [nesting_eq s]
  exact nesting_le_nestingOf h

section Unfolding

variable (run : Scope → Equation → Outcome Value)

/-- An argument of a call in the scope, which `run` evaluates. -/
def argumentBy (s : Scope) (tree : Equation) : Argument :=
  ⟨tree, fun bindings => run { s with values := bindings } tree⟩

def callBy (s : Scope) (name : String) (arguments : List Equation) : Call :=
  ⟨.call name arguments, name, arguments.map (s.argumentBy run), s.values, s.limit, s.depth⟩

/-- A call in the scope; `run` evaluates the body of a defined function. -/
def applyBy (s : Scope) (call : Call) : Callable → Outcome Value
  | .builtin function => function.run call
  | .numeric function => function.run call
  | .hosted function => function call
  | .defined parameters body captured => do
    call.checkArity (.exactly parameters.length)
    let values ← call.values
    run (captured.entered parameters values s) body

/-- The value of a node, its parts being evaluated in the scope by `run`. -/
def nodeBy (s : Scope) : Equation → Outcome Value
  | .number x => .ok (.number x)
  | .reference name =>
    match s.value? name with
    | some v => .ok v
    | none => Outcome.blame (.reference name) (.unknownVariable name)
  | .block child => run s child
  | .signed .positive operand => run s operand
  | .signed .negative operand => Value.negate <$> run s operand
  | .signed .plusMinus operand => Outcome.blame (.signed .plusMinus operand) .plusMinus
  | .binary operator left right =>
    if operator = .plusMinus then Outcome.blame (.binary operator left right) .plusMinus
    else do
      let a ← run s left
      let b ← run s right
      Arithmetic.apply operator (.binary operator left right) a b
  | .comparison relation left right =>
    Outcome.blame (.comparison relation left right) (.comparison relation)
  | .call name arguments =>
    match s.function? name with
    | some f => s.applyBy run (s.callBy run name arguments) f
    | none => Outcome.blame (.call name arguments) (.unknownFunction name)
  | .matrix rows =>
    MatrixLiteral.value (.matrix rows) s.values (rows.map fun row => row.map (s.argumentBy run))
  | .missingOperand => Outcome.blame .missingOperand .incomplete
  | .missingOperator left right => Outcome.blame (.missingOperator left right) .incomplete
  | .missingSign operand => Outcome.blame (.missingSign operand) .incomplete
  | .missingFunction arguments => Outcome.blame (.missingFunction arguments) .incomplete
  | .unreadable token => Outcome.blame (.unreadable token) (.unreadable token)

/-- One evaluation; its calls of itself go to `run`. -/
def evaluateBy (s : Scope) (e : Equation) : Outcome Value := do
  let _ ← enter s.limit s.depth e
  s.deeper.nodeBy run e

/-- Evaluation with a budget of nested calls. The answer of a call for which no budget is left is
`spent`; it is of no account if none comes to that. -/
def evaluateWithin (spent : Scope → Equation → Outcome Value) : Nat → Scope → Equation → Outcome Value
  | 0 => spent
  | budget + 1 => evaluateBy (evaluateWithin spent budget)

end Unfolding

theorem applyBy_evaluate (s : Scope) (name : String) (arguments : List Equation) (f : Callable) :
    s.applyBy evaluate (s.callOf name arguments) f = f.run (s.callOf name arguments) := by
  cases f with
  | defined parameters body captured => rw [Callable.run_defined, ← values_callOf]; rfl
  | _ => rfl

/-- The evaluation is what its own body makes of it. -/
theorem evaluateBy_evaluate (s : Scope) (e : Equation) : s.evaluateBy evaluate e = s.evaluate e := by
  rw [evaluate_eq_bind, evaluateBy]
  congr 1
  funext _
  cases e with
  | signed operator operand => cases operator <;> rfl
  | call name arguments =>
    simp only [nodeBy, evaluateNode]
    cases s.deeper.function? name with
    | none => rfl
    | some f => exact applyBy_evaluate s.deeper name arguments f
  | _ => rfl

section Congruence

variable {run other : Scope → Equation → Outcome Value}

theorem argumentBy_congr {tree : Equation}
    (h : ∀ t : Scope, t.functions = s.functions → run t tree = other t tree) :
    s.argumentBy run tree = s.argumentBy other tree := by
  rw [argumentBy, argumentBy, Argument.mk.injEq]
  refine ⟨rfl, funext fun bindings => ?_⟩
  exact h { s with values := bindings } rfl

theorem applyBy_congr {call : Call} {f : Callable}
    (h : ∀ parameters body captured, f = .defined parameters body captured →
      ∀ t : Scope, t.functions = captured.functions → run t body = other t body) :
    s.applyBy run call f = s.applyBy other call f := by
  cases f with
  | defined parameters body captured =>
    have hbody (values : List Value) := h parameters body captured rfl
      (captured.entered parameters values s) rfl
    simp only [applyBy, hbody]
  | _ => rfl

/-- An evaluation asks for nothing but parts of its tree, under the same functions, and bodies of the
functions that the scope binds, under those that they captured. -/
theorem evaluateBy_congr
    (hp : ∀ (t : Scope) p, t.functions = s.functions → p ∈ e.parts → run t p = other t p)
    (hb : ∀ (t : Scope) name parameters body captured,
      s.function? name = some (.defined parameters body captured) →
      t.functions = captured.functions → run t body = other t body) :
    s.evaluateBy run e = s.evaluateBy other e := by
  have hd (p : Equation) (h : p ∈ e.parts) : run s.deeper p = other s.deeper p :=
    hp s.deeper p rfl h
  have ha (p : Equation) (h : p ∈ e.parts) :
      s.deeper.argumentBy run p = s.deeper.argumentBy other p :=
    argumentBy_congr fun t ht => hp t p ht h
  have hnode : s.deeper.nodeBy run e = s.deeper.nodeBy other e := by
    cases e with
    | block child => exact hd child (by simp [Equation.parts])
    | signed operator operand =>
      have ho := hd operand (by simp [Equation.parts])
      cases operator <;> simp only [nodeBy, ho]
    | binary operator left right =>
      have hl := hd left (by simp [Equation.parts])
      have hr := hd right (by simp [Equation.parts])
      simp only [nodeBy, hl, hr]
    | call name arguments =>
      have hcall : s.deeper.callBy run name arguments = s.deeper.callBy other name arguments := by
        rw [callBy, callBy, List.map_congr_left (show ∀ p ∈ arguments, _ from ha)]
      simp only [nodeBy, hcall, function?_deeper]
      cases hf : s.function? name with
      | none => rfl
      | some f =>
        apply applyBy_congr
        rintro parameters body captured rfl t ht
        exact hb t name parameters body captured hf ht
    | matrix rows =>
      have hrows : rows.map (fun row => row.map (s.deeper.argumentBy run)) =
          rows.map fun row => row.map (s.deeper.argumentBy other) := by
        refine List.map_congr_left fun row hr => List.map_congr_left fun tree ht => ?_
        exact ha tree (List.mem_flatten_of_mem hr ht)
      simp only [nodeBy, hrows]
    | _ => rfl
  rw [evaluateBy, evaluateBy, hnode]

end Congruence

theorem evaluateWithin_eq (spent : Scope → Equation → Outcome Value) {budget : Nat}
    (h : e.height + s.nesting ≤ budget) : evaluateWithin spent budget s e = s.evaluate e := by
  induction budget generalizing s e with
  | zero =>
    have := e.height_pos
    omega
  | succ budget ih =>
    rw [evaluateWithin, ← evaluateBy_evaluate s e]
    apply evaluateBy_congr
    · intro t p ht hp
      have hlt := Equation.height_lt_of_mem_parts hp
      have hn : t.nesting = s.nesting := by rw [nesting_eq, nesting_eq, ht]
      exact ih (by omega)
    · intro t name parameters body captured hf ht
      have hle := nesting_of_defined hf
      have hn : t.nesting = captured.nesting := by rw [nesting_eq, nesting_eq, ht]
      have := e.height_pos
      exact ih (by omega)

/-- The terms of a sum that are evaluated, one for each integer of the range. -/
theorem terms_finite (s : Scope) (e : Equation) :
    {x : Scope × Equation | ∃ name index first last term m n i,
      e = .call name [.reference index, first, last, term] ∧ s.bound? first = some m ∧
      s.bound? last = some n ∧ min m n ≤ i ∧ i ≤ max m n ∧
      x = (s.atIndex index i, term)}.Finite := by
  by_cases h : ∃ name index first last term m n,
      e = .call name [.reference index, first, last, term] ∧ s.bound? first = some m ∧
      s.bound? last = some n
  · obtain ⟨name, index, first, last, term, m, n, rfl, hm, hn⟩ := h
    apply ((Set.finite_Icc (min m n) (max m n)).image fun i => (s.atIndex index i, term)).subset
    rintro _ ⟨_, _, _, _, _, m', n', i, he, hm', hn', hl, hu, rfl⟩
    cases he
    obtain rfl : m = m' := Option.some.inj (hm.symm.trans hm')
    obtain rfl : n = n' := Option.some.inj (hn.symm.trans hn')
    exact ⟨i, ⟨hl, hu⟩, rfl⟩
  · apply Set.finite_empty.subset
    rintro _ ⟨name, index, first, last, term, m, n, i, he, hm, hn, -⟩
    exact h ⟨name, index, first, last, term, m, n, he, hm, hn⟩

/-- A call enters at most one body. -/
theorem bodies_finite (s : Scope) (e : Equation) :
    {x : Scope × Equation | ∃ name arguments parameters body captured values,
      e = .call name arguments ∧ s.function? name = some (.defined parameters body captured) ∧
      arguments.mapM s.deeper.evaluate = .ok values ∧
      x = (captured.entered parameters values s.deeper, body)}.Finite := by
  apply Set.Subsingleton.finite
  rintro _ ⟨_, _, _, _, _, _, he, hf, hv, rfl⟩ _ ⟨_, _, _, _, _, _, he', hf', hv', rfl⟩
  obtain ⟨rfl, rfl⟩ := Equation.call.inj (he.symm.trans he')
  obtain ⟨rfl, rfl, rfl⟩ := Callable.defined.inj (Option.some.inj (hf.symm.trans hf'))
  obtain rfl := Except.ok.inj (hv.symm.trans hv')
  rfl

theorem starts_finite (s : Scope) (e : Equation) :
    {x : Scope × Equation | s.Starts e x.1 x.2}.Finite := by
  have hparts : (Prod.mk s.deeper '' {p | p ∈ e.parts}).Finite :=
    (List.finite_toSet e.parts).image _
  apply ((hparts.union (terms_finite s.deeper e)).union (bodies_finite s e)).subset
  rintro ⟨t, p⟩ h
  have hpart (q : Equation) (hq : q ∈ e.parts) :
      (s.deeper, q) ∈ Prod.mk s.deeper '' {p | p ∈ e.parts} := ⟨q, hq, rfl⟩
  cases h with
  | term _ hm hn hl hu => exact .inl (.inr ⟨_, _, _, _, _, _, _, _, rfl, hm, hn, hl, hu, rfl⟩)
  | body hf _ hv => exact .inr ⟨_, _, _, _, _, _, rfl, hf, hv, rfl⟩
  | cell hr ht => exact .inl (.inl (hpart p (List.mem_flatten_of_mem hr ht)))
  | argument _ _ ht => exact .inl (.inl (hpart p ht))
  | _ => exact .inl (.inl (hpart p (by simp [Equation.parts])))

theorem visits_finite (s : Scope) (e : Equation) :
    {x : Scope × Equation | s.Visits e x.1 x.2}.Finite := by
  induction s, e using starts_induction with
  | step s e ih =>
    have hlater : (⋃ x ∈ {x : Scope × Equation | s.Starts e x.1 x.2},
        {y : Scope × Equation | x.1.Visits x.2 y.1 y.2}).Finite :=
      (starts_finite s e).biUnion fun x hx => ih x.1 x.2 hx
    apply (hlater.insert (s, e)).subset
    rintro ⟨t, p⟩ h
    rcases h.cases_head with ⟨rfl, rfl⟩ | ⟨u, q, hs, h⟩
    · exact .inl rfl
    · exact .inr (Set.mem_biUnion (show (u, q) ∈ _ from hs) h)

/-- An evaluation comes to finitely many others in all, and a budget for nested calls that is as
large as the heights of the tree and of the nested bodies together, or larger, is never spent. -/
theorem evaluation_terminates (s : Scope) (e : Equation) :
    {x : Scope × Equation | s.Visits e x.1 x.2}.Finite ∧
      ∀ spent more, evaluateWithin spent (e.height + s.nesting + more) s e = s.evaluate e :=
  ⟨visits_finite s e, fun spent more => evaluateWithin_eq spent (Nat.le_add_right _ more)⟩

/-- A function that calls its own name finds what that name meant before it was defined. -/
example : (standard.bindFunction "f"
      (.defined ["x"] (.call "f" [.reference "x"]) standard)).evaluate (.call "f" [.number 1.0]) =
    .error (.fault ⟨.unknownFunction "f", .call "f" [.reference "x"]⟩) :=
  rfl

end Scope

end QuantityCalculus
