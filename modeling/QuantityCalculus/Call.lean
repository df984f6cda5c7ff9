import QuantityCalculus.Fault.Basic
import QuantityCalculus.Scope.Bindings

/-!
Calls as a function sees them. The arguments are not evaluated yet: the function decides which of
them it evaluates, and under which variables.
-/
namespace QuantityCalculus

/-- A tree with its value in the scope of the caller, as a function of the variables there. -/
structure Argument where
  tree : Equation
  value : Bindings Value → Outcome Value

/-- A call with the variables, the depth limit and the depth of its caller. -/
structure Call where
  site : Equation
  name : String
  arguments : List Argument
  bindings : Bindings Value
  limit : Option Nat
  depth : Nat

namespace Call

def blame {α : Type} (call : Call) (cause : Cause) : Outcome α :=
  Outcome.blame call.site cause

/-- Blames an argument, or the call itself when there is no such argument. -/
def blameArgument {α : Type} (call : Call) (index : Nat) (cause : Cause) : Outcome α :=
  Outcome.blame ((call.arguments[index]?.map Argument.tree).getD call.site) cause

def checkArity (call : Call) (arity : Arity) : Outcome Unit :=
  if arity.admits call.arguments.length then .ok ()
  else call.blame (.argumentCount call.name arity call.arguments.length)

/-- The value of an argument in the scope of the caller. -/
def valueOf (call : Call) (argument : Argument) : Outcome Value :=
  argument.value call.bindings

/-- All arguments from left to right, up to the first that has no value. -/
def values (call : Call) : Outcome (List Value) :=
  call.arguments.mapM call.valueOf

def bareNumber (call : Call) (argument : Argument) : Outcome Float := do
  match ← call.valueOf argument with
  | .number x => return x
  | _ => Outcome.blame argument.tree (.numbersOnly call.name)

/-- All arguments from left to right, up to the first that is no bare number. -/
def numbers (call : Call) : Outcome (List Float) :=
  call.arguments.mapM call.bareNumber

end Call

/-- An argument outside the domain of a function, and what is wrong with it. -/
structure Violation where
  index : Nat
  cause : Cause
  deriving Repr

/-- A function of bare numbers with a check of its domain. -/
structure NumericFunction where
  arity : Arity
  apply : List Float → Float
  check : String → List Float → Option Violation

namespace NumericFunction

def unchecked (arity : Arity) (apply : List Float → Float) : NumericFunction :=
  ⟨arity, apply, fun _ _ => none⟩

def run (f : NumericFunction) (call : Call) : Outcome Value := do
  call.checkArity f.arity
  let xs ← call.numbers
  match f.check call.name xs with
  | some violation => call.blameArgument violation.index violation.cause
  | none => return .number (f.apply xs)

end NumericFunction

end QuantityCalculus
