import QuantityCalculus.Scope.Basic

/-!
Evaluation of equations in a scope. The meaning of an equation is defined by recursion on the
tree, given what the names of functions stand for; the meaning of a function is defined by
recursion on the nesting of the captured scopes. So every evaluation ends.
-/
namespace QuantityCalculus

/-- The depth inside a node, unless the limit forbids the node itself. -/
def enter (limit : Option Nat) (depth : Nat) (site : Equation) : Outcome Nat :=
  match limit with
  | some n => if n < depth + 1 then Outcome.blame site (.depth n) else .ok (depth + 1)
  | none => .ok (depth + 1)

namespace MatrixLiteral

/-- The number in a cell. The unit of the first cell is expected of all the others. -/
def cell (expected : Option CompoundUnit) (bindings : Bindings Value) (argument : Argument) :
    Outcome (CompoundUnit × Float) := do
  let v ← argument.value bindings
  let unit := expected.getD v.units
  if unit.sameUnit v.units then
    match v.quantity with
    | .number x => return (unit, x)
    | .matrix _ => Outcome.blame argument.tree .nestedMatrix
  else Outcome.blame argument.tree (.cellUnits unit v.units)

def row (expected : Option CompoundUnit) (bindings : Bindings Value) :
    List Argument → Outcome (Option CompoundUnit × List Float)
  | [] => .ok (expected, [])
  | argument :: rest => do
    let (unit, x) ← cell expected bindings argument
    let (unit, xs) ← row (some unit) bindings rest
    return (unit, x :: xs)

def rows (expected : Option CompoundUnit) (bindings : Bindings Value) :
    List (List Argument) → Outcome (Option CompoundUnit × List (List Float))
  | [] => .ok (expected, [])
  | arguments :: rest => do
    let (unit, xs) ← row expected bindings arguments
    let (unit, xss) ← rows unit bindings rest
    return (unit, xs :: xss)

/-- The shape is checked last, after all the cells. -/
def value (site : Equation) (bindings : Bindings Value) (arguments : List (List Argument)) :
    Outcome Value := do
  let (unit, cells) ← rows none bindings arguments
  match Matrix.ofRows? cells with
  | some m => return .ofParts (unit.getD .dimensionless) (.matrix m)
  | none => Outcome.blame site .malformedMatrix

end MatrixLiteral

/-- What the names of functions stand for. -/
abbrev Functions : Type :=
  String → Option (Call → Outcome Value)

mutual

/-- The value of an equation at a depth and under bindings of its variables. -/
def Equation.meaning (functions : Functions) (limit : Option Nat) :
    Equation → Nat → Bindings Value → Outcome Value
  | .number x, depth, _ => do
    let _ ← enter limit depth (.number x)
    return .number x
  | .reference name, depth, bindings => do
    let _ ← enter limit depth (.reference name)
    match bindings.find? name with
    | some v => return v
    | none => Outcome.blame (.reference name) (.unknownVariable name)
  | .block child, depth, bindings => do
    let inner ← enter limit depth (.block child)
    child.meaning functions limit inner bindings
  | .signed operator operand, depth, bindings => do
    let inner ← enter limit depth (.signed operator operand)
    match operator with
    | .positive => operand.meaning functions limit inner bindings
    | .negative => return (← operand.meaning functions limit inner bindings).negate
    | .plusMinus => Outcome.blame (.signed operator operand) .plusMinus
  | .binary operator left right, depth, bindings => do
    let inner ← enter limit depth (.binary operator left right)
    if operator = .plusMinus then Outcome.blame (.binary operator left right) .plusMinus
    else
      let a ← left.meaning functions limit inner bindings
      let b ← right.meaning functions limit inner bindings
      Arithmetic.apply operator (.binary operator left right) a b
  | .comparison relation left right, depth, _ => do
    let _ ← enter limit depth (.comparison relation left right)
    Outcome.blame (.comparison relation left right) (.comparison relation)
  | .call name arguments, depth, bindings => do
    let inner ← enter limit depth (.call name arguments)
    match functions name with
    | some run =>
      run ⟨.call name arguments, name, Equation.argumentsOf functions limit arguments inner,
        bindings, limit, inner⟩
    | none => Outcome.blame (.call name arguments) (.unknownFunction name)
  | .matrix rows, depth, bindings => do
    let inner ← enter limit depth (.matrix rows)
    MatrixLiteral.value (.matrix rows) bindings (Equation.rowsOf functions limit rows inner)
  | .missingOperand, depth, _ => do
    let _ ← enter limit depth .missingOperand
    Outcome.blame .missingOperand .incomplete
  | .missingOperator left right, depth, _ => do
    let _ ← enter limit depth (.missingOperator left right)
    Outcome.blame (.missingOperator left right) .incomplete
  | .missingSign operand, depth, _ => do
    let _ ← enter limit depth (.missingSign operand)
    Outcome.blame (.missingSign operand) .incomplete
  | .missingFunction arguments, depth, _ => do
    let _ ← enter limit depth (.missingFunction arguments)
    Outcome.blame (.missingFunction arguments) .incomplete
  | .unreadable token, depth, _ => do
    let _ ← enter limit depth (.unreadable token)
    Outcome.blame (.unreadable token) (.unreadable token)

def Equation.argumentsOf (functions : Functions) (limit : Option Nat) :
    List Equation → Nat → List Argument
  | [], _ => []
  | tree :: rest, depth =>
    ⟨tree, tree.meaning functions limit depth⟩ :: Equation.argumentsOf functions limit rest depth

def Equation.rowsOf (functions : Functions) (limit : Option Nat) :
    List (List Equation) → Nat → List (List Argument)
  | [], _ => []
  | row :: rest, depth =>
    Equation.argumentsOf functions limit row depth :: Equation.rowsOf functions limit rest depth

end

theorem Equation.argumentsOf_eq_map (functions : Functions) (limit : Option Nat)
    (trees : List Equation) (depth : Nat) :
    Equation.argumentsOf functions limit trees depth =
      trees.map fun tree => ⟨tree, tree.meaning functions limit depth⟩ := by
  induction trees with
  | nil => rfl
  | cons tree rest ih => rw [Equation.argumentsOf, ih, List.map_cons]

theorem Equation.rowsOf_eq_map (functions : Functions) (limit : Option Nat)
    (rows : List (List Equation)) (depth : Nat) :
    Equation.rowsOf functions limit rows depth =
      rows.map fun row => Equation.argumentsOf functions limit row depth := by
  induction rows with
  | nil => rfl
  | cons row rest ih => rw [Equation.rowsOf, ih, List.map_cons]

/-- A call of a defined function: the arguments are evaluated in the scope of the caller and bound
over the captured variables, and the body is evaluated at the depth and under the limit of the
caller. -/
def callDefined (parameters : List String) (body : Equation) (bindings : Bindings Value)
    (functions : Functions) (call : Call) : Outcome Value := do
  call.checkArity (.exactly parameters.length)
  let values ← call.values
  body.meaning functions call.limit call.depth (bindings.insertAll (parameters.zip values))

mutual

def Callable.run : Callable → Call → Outcome Value
  | .builtin function => function.run
  | .numeric function => function.run
  | .hosted run => run
  | .defined parameters body captured =>
    callDefined parameters body captured.values captured.functionMeanings

def Scope.functionMeanings : Scope → Functions
  | ⟨_, functions, _, _⟩ => meaningsOf functions

def meaningsOf : Bindings Callable → Functions
  | .empty => fun _ => none
  | .bind bound function rest => fun name =>
    if bound = name then some function.run else meaningsOf rest name

end

theorem meaningsOf_eq (functions : Bindings Callable) (name : String) :
    meaningsOf functions name = (functions.find? name).map Callable.run := by
  induction functions with
  | empty => simp [meaningsOf]
  | bind bound function rest ih =>
    by_cases h : bound = name <;> simp [meaningsOf, Bindings.find?, h, ih]

/-- The names of functions mean what the bound functions do. -/
theorem Scope.functionMeanings_eq (s : Scope) (name : String) :
    s.functionMeanings name = (s.function? name).map Callable.run := by
  obtain ⟨values, functions, limit, depth⟩ := s
  rw [Scope.functionMeanings, meaningsOf_eq, Scope.function?]

/-- The value of an equation in a scope. -/
def Scope.evaluate (s : Scope) (e : Equation) : Outcome Value :=
  e.meaning s.functionMeanings s.limit s.depth s.values

end QuantityCalculus
