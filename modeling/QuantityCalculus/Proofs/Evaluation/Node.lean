import QuantityCalculus.Evaluation
import QuantityCalculus.Proofs.Outcome

/-!
One step of an evaluation. The value of a tree is given by the values of other trees in scopes
derived from its own, so that no later proof unfolds the meaning of equations.
-/
namespace QuantityCalculus

namespace Scope

/-- The scope in which the parts of a node are evaluated. -/
def deeper (s : Scope) : Scope :=
  { s with depth := s.depth + 1 }

@[simp] theorem value?_deeper (s : Scope) (name : String) : s.deeper.value? name = s.value? name :=
  rfl

@[simp] theorem function?_deeper (s : Scope) (name : String) :
    s.deeper.function? name = s.function? name :=
  rfl

/-- The node itself is within the limit on the depth. -/
def HasRoom (s : Scope) : Prop :=
  ∀ n, s.limit = some n → s.depth < n

/-- An argument of a call in the scope. -/
def argument (s : Scope) (tree : Equation) : Argument :=
  ⟨tree, fun bindings => ({ s with values := bindings } : Scope).evaluate tree⟩

def callOf (s : Scope) (name : String) (arguments : List Equation) : Call :=
  ⟨.call name arguments, name, arguments.map s.argument, s.values, s.limit, s.depth⟩

/-- The scope for the body of a defined function at a call from another scope. -/
def entered (captured : Scope) (parameters : List String) (values : List Value)
    (caller : Scope) : Scope :=
  { captured with
    values := captured.values.insertAll (parameters.zip values)
    limit := caller.limit
    depth := caller.depth }

@[simp] theorem valueOf_callOf (s : Scope) (name : String) (arguments : List Equation)
    (tree : Equation) :
    (s.callOf name arguments).valueOf (s.argument tree) = s.evaluate tree := by
  cases s
  rfl

@[simp] theorem tree_argument (s : Scope) (tree : Equation) : (s.argument tree).tree = tree :=
  rfl

@[simp] theorem value_argument (s : Scope) (tree : Equation) :
    (s.argument tree).value s.values = s.evaluate tree := by
  cases s
  rfl

@[simp] theorem name_callOf (s : Scope) (name : String) (arguments : List Equation) :
    (s.callOf name arguments).name = name :=
  rfl

theorem arguments_callOf (s : Scope) (name : String) (arguments : List Equation) :
    (s.callOf name arguments).arguments = arguments.map s.argument :=
  rfl

theorem blameArgument_callOf {α : Type} (s : Scope) (name : String) (arguments : List Equation)
    (index : Nat) (cause : Cause) :
    ((s.callOf name arguments).blameArgument index cause : Outcome α) =
      Outcome.blame (arguments[index]?.getD (.call name arguments)) cause := by
  rw [Call.blameArgument, arguments_callOf, List.getElem?_map, Option.map_map]
  cases arguments[index]? <;> rfl

theorem values_callOf (s : Scope) (name : String) (arguments : List Equation) :
    (s.callOf name arguments).values = arguments.mapM s.evaluate := by
  rw [Call.values, callOf, List.mapM_map]
  exact congrArg (arguments.mapM ·) (funext fun tree => s.valueOf_callOf name arguments tree)

/-- The value of a node, its parts being evaluated in the scope. -/
def evaluateNode (s : Scope) : Equation → Outcome Value
  | .number x => .ok (.number x)
  | .reference name =>
    match s.value? name with
    | some v => .ok v
    | none => Outcome.blame (.reference name) (.unknownVariable name)
  | .block child => s.evaluate child
  | .signed .positive operand => s.evaluate operand
  | .signed .negative operand => Value.negate <$> s.evaluate operand
  | .signed .plusMinus operand => Outcome.blame (.signed .plusMinus operand) .plusMinus
  | .binary operator left right =>
    if operator = .plusMinus then Outcome.blame (.binary operator left right) .plusMinus
    else do
      let a ← s.evaluate left
      let b ← s.evaluate right
      Arithmetic.apply operator (.binary operator left right) a b
  | .comparison relation left right =>
    Outcome.blame (.comparison relation left right) (.comparison relation)
  | .call name arguments =>
    match s.function? name with
    | some f => f.run (s.callOf name arguments)
    | none => Outcome.blame (.call name arguments) (.unknownFunction name)
  | .matrix rows =>
    MatrixLiteral.value (.matrix rows) s.values (rows.map fun row => row.map s.argument)
  | .missingOperand => Outcome.blame .missingOperand .incomplete
  | .missingOperator left right => Outcome.blame (.missingOperator left right) .incomplete
  | .missingSign operand => Outcome.blame (.missingSign operand) .incomplete
  | .missingFunction arguments => Outcome.blame (.missingFunction arguments) .incomplete
  | .unreadable token => Outcome.blame (.unreadable token) (.unreadable token)

theorem evaluateNode_call {s : Scope} {name : String} {f : Callable}
    (hf : s.function? name = some f) (arguments : List Equation) :
    s.deeper.evaluateNode (.call name arguments) = f.run (s.deeper.callOf name arguments) := by
  simp only [evaluateNode, function?_deeper, hf]

theorem evaluateNode_binary_eq_ok {s : Scope} {operator : BinaryOperator} {left right : Equation}
    {v : Value} (ho : operator ≠ .plusMinus) :
    s.evaluateNode (.binary operator left right) = .ok v ↔ ∃ a b, s.evaluate left = .ok a ∧
      s.evaluate right = .ok b ∧
      Arithmetic.apply operator (.binary operator left right) a b = .ok v := by
  rw [evaluateNode, if_neg ho, Outcome.bind_eq_ok]
  simp only [Outcome.bind_eq_ok, exists_and_left]

theorem functionMeanings_eq_meaningsOf (s : Scope) :
    s.functionMeanings = meaningsOf s.functions := by
  cases s
  rfl

theorem enter_eq (s : Scope) (e : Equation) :
    (s.HasRoom ∧ enter s.limit s.depth e = .ok s.deeper.depth) ∨
      ∃ n, s.limit = some n ∧ n < s.depth + 1 ∧
        enter s.limit s.depth e = Outcome.blame e (.depth n) := by
  unfold enter HasRoom
  cases s.limit with
  | none => exact .inl ⟨by simp, rfl⟩
  | some n =>
    by_cases h : n < s.depth + 1
    · exact .inr ⟨n, rfl, h, if_pos h⟩
    · exact .inl ⟨by simp; omega, if_neg h⟩

theorem argument_eq (s : Scope) (tree : Equation) :
    s.argument tree = ⟨tree, tree.meaning s.functionMeanings s.limit s.depth⟩ := by
  cases s
  rfl

theorem arguments_eq (s : Scope) (trees : List Equation) :
    Equation.argumentsOf s.functionMeanings s.limit trees s.depth = trees.map s.argument := by
  rw [Equation.argumentsOf_eq_map]
  exact List.map_congr_left fun tree _ => (s.argument_eq tree).symm

theorem rows_eq (s : Scope) (rows : List (List Equation)) :
    Equation.rowsOf s.functionMeanings s.limit rows s.depth =
      rows.map fun row => row.map s.argument := by
  simp only [Equation.rowsOf_eq_map, arguments_eq]

/-- The depth of a node is checked before anything else. -/
theorem evaluate_eq_bind (s : Scope) (e : Equation) :
    s.evaluate e = (do let _ ← enter s.limit s.depth e; s.deeper.evaluateNode e) := by
  have hm : s.functionMeanings = s.deeper.functionMeanings := by
    simp only [functionMeanings_eq_meaningsOf, deeper]
  unfold evaluate
  rcases s.enter_eq e with ⟨-, he⟩ | ⟨n, -, -, he⟩
  · cases e with
    | signed operator operand =>
      cases operator <;> simp only [Equation.meaning, he, evaluateNode, hm] <;> rfl
    | call name arguments =>
      have ha := s.deeper.arguments_eq arguments
      simp only [Equation.meaning, he, hm, functionMeanings_eq, Outcome.ok_bind, evaluateNode,
        function?_deeper]
      cases s.function? name with
      | none => rfl
      | some f => exact congrArg (fun as => f.run ⟨_, _, as, _, _, _⟩) ha
    | matrix rows =>
      have hr := s.deeper.rows_eq rows
      simp only [Equation.meaning, he, hm, Outcome.ok_bind, evaluateNode]
      exact congrArg (MatrixLiteral.value _ _) hr
    | _ =>
      simp only [Equation.meaning, he, evaluateNode, hm]
      try rfl
  · cases e <;> simp only [Equation.meaning, he] <;> rfl

/-- Within the limit a tree comes to what its node comes to. -/
theorem HasRoom.evaluate_eq {s : Scope} (h : s.HasRoom) (e : Equation) :
    s.evaluate e = s.deeper.evaluateNode e := by
  rw [evaluate_eq_bind]
  rcases s.enter_eq e with ⟨-, he⟩ | ⟨n, hl, hn, -⟩
  · rw [he]
    rfl
  · have := h n hl
    omega

theorem hasRoom_of_limit {s : Scope} (hl : s.limit = none) : s.HasRoom := by
  intro n hn
  rw [hl] at hn
  cases hn

/-- Without a limit a tree has the value of its node. -/
theorem evaluate_eq_node {s : Scope} (hl : s.limit = none) (e : Equation) :
    s.evaluate e = s.deeper.evaluateNode e :=
  (hasRoom_of_limit hl).evaluate_eq e

theorem HasRoom.of_deeper {s : Scope} (h : s.deeper.HasRoom) : s.HasRoom := by
  intro n hl
  have : s.depth + 1 < n := h n hl
  omega

theorem evaluate_eq_ok {s : Scope} {e : Equation} {v : Value} :
    s.evaluate e = .ok v ↔ s.HasRoom ∧ s.deeper.evaluateNode e = .ok v := by
  rw [evaluate_eq_bind]
  rcases s.enter_eq e with ⟨hr, he⟩ | ⟨n, hl, hn, he⟩
  · simp only [he, Outcome.ok_bind, hr, true_and]
  · have hr : ¬ s.HasRoom := fun h => by have := h n hl; omega
    simp [he, Outcome.blame, hr]

/-- A node beyond the limit is blamed for that; any other stop comes from the node itself. -/
theorem evaluate_eq_error {s : Scope} {e : Equation} {stop : Stop} :
    s.evaluate e = .error stop ↔
      (∃ n, s.limit = some n ∧ n < s.depth + 1 ∧ stop = .fault ⟨.depth n, e⟩) ∨
        s.HasRoom ∧ s.deeper.evaluateNode e = .error stop := by
  rw [evaluate_eq_bind]
  rcases s.enter_eq e with ⟨hr, he⟩ | ⟨n, hl, hn, he⟩
  · have hno : ¬ ∃ n, s.limit = some n ∧ n < s.depth + 1 ∧ stop = .fault ⟨.depth n, e⟩ := by
      rintro ⟨n, hl, hn, -⟩
      have := hr n hl
      omega
    simp only [he, Outcome.ok_bind, hr, true_and, hno, false_or]
  · have hr : ¬ s.HasRoom := fun h => by have := h n hl; omega
    simp only [he, hr, false_and, or_false, Outcome.bind_eq_error, Outcome.blame_eq_error,
      Outcome.blame_ne_ok, exists_false]
    constructor
    · rintro rfl
      exact ⟨n, hl, hn, rfl⟩
    · rintro ⟨m, hm, -, rfl⟩
      rw [hl] at hm
      rw [Option.some.inj hm]

end Scope

/-- The body of a defined function is evaluated in its captured scope, in which the parameters are
bound to the values of the arguments. -/
theorem Callable.run_defined (parameters : List String) (body : Equation) (captured s : Scope)
    (name : String) (arguments : List Equation) :
    (Callable.defined parameters body captured).run (s.callOf name arguments) = (do
      (s.callOf name arguments).checkArity (.exactly parameters.length)
      let values ← arguments.mapM s.evaluate
      (captured.entered parameters values s).evaluate body) := by
  rw [Callable.run, callDefined, Scope.values_callOf]
  cases captured
  rfl

end QuantityCalculus
