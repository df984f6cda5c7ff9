import QuantityCalculus.Builtin.Catalogue

/-!
Scopes: the variables and functions that an evaluation sees, with the limit on its depth. A
defined function holds the scope of its definition as it stood then, so a scope is a finite tree
of scopes and never contains itself.
-/
namespace QuantityCalculus

mutual

inductive Callable where
  | builtin (function : Builtin)
  | numeric (function : NumericFunction)
  /-- A function of the host, which sees the call and nothing else of the scope. -/
  | hosted (run : Call → Outcome Value)
  | defined (parameters : List String) (body : Equation) (captured : Scope)

structure Scope where
  values : Bindings Value
  functions : Bindings Callable
  limit : Option Nat
  depth : Nat

end

namespace Scope

def empty : Scope :=
  ⟨.empty, .empty, none, 0⟩

def constants : Bindings Value :=
  .ofList [("pi", .number 3.141592653589793), ("e", .number 2.718281828459045)]

def standardFunctions : Bindings Callable :=
  .ofList (Builtin.all.map fun b => (b.name, .builtin b))

/-- The constants and the built-in functions. -/
def standard : Scope :=
  ⟨constants, standardFunctions, none, 0⟩

def ofBindings (values : Bindings Value) (functions : Bindings Callable) : Scope :=
  ⟨values, functions, none, 0⟩

def withLimit (s : Scope) (limit : Option Nat) : Scope :=
  { s with limit }

def value? (s : Scope) (name : String) : Option Value :=
  s.values.find? name

def function? (s : Scope) (name : String) : Option Callable :=
  s.functions.find? name

def bindValue (s : Scope) (name : String) (value : Value) : Scope :=
  { s with values := s.values.insert name value }

def bindFunction (s : Scope) (name : String) (function : Callable) : Scope :=
  { s with functions := s.functions.insert name function }

end Scope

end QuantityCalculus
