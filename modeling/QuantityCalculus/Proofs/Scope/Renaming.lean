import Mathlib.Logic.Function.Basic
import QuantityCalculus.Proofs.Equation.Renaming
import QuantityCalculus.Proofs.Evaluation.Calls

/-!
New names throughout a scope: for what it binds and, in each defined function, for the parameters,
in the body and throughout the captured scope.
-/
namespace QuantityCalculus

namespace Bindings

variable {α : Type} {f : String → String}

def rename (f : String → String) : Bindings α → Bindings α
  | .empty => .empty
  | .bind name value rest => .bind (f name) value (rest.rename f)

/-- Distinct names stay distinct, so that no binding hides another one than before. -/
theorem find?_rename (hf : Function.Injective f) (b : Bindings α) (name : String) :
    (b.rename f).find? (f name) = b.find? name := by
  induction b with
  | empty => rfl
  | bind bound value rest ih => simp only [rename, find?, ih, hf.eq_iff]

theorem insertAll_rename (b : Bindings α) (names : List String) (values : List α) :
    (b.insertAll (names.zip values)).rename f =
      (b.rename f).insertAll ((names.map f).zip values) := by
  induction names generalizing b values with
  | nil => rfl
  | cons name names ih =>
    cases values with
    | nil => rfl
    | cons value values => exact ih (b.insert name value) values

end Bindings

mutual

/-- A function of the host is not renamed, as nothing is known of the names in it. -/
def Callable.rename (r : Renaming) : Callable → Callable
  | .builtin function => .builtin function
  | .numeric function => .numeric function
  | .hosted run => .hosted run
  | .defined parameters body captured =>
    .defined (parameters.map r.references) (body.rename r) (captured.rename r)

def Scope.rename (r : Renaming) : Scope → Scope
  | ⟨values, functions, limit, depth⟩ =>
    ⟨values.rename r.references, renameFunctions r functions, limit, depth⟩

def renameFunctions (r : Renaming) : Bindings Callable → Bindings Callable
  | .empty => .empty
  | .bind name function rest =>
    .bind (r.functions name) (function.rename r) (renameFunctions r rest)

end

namespace Scope

variable {r : Renaming}

theorem limit_rename (r : Renaming) (s : Scope) : (s.rename r).limit = s.limit := by
  cases s
  rfl

theorem depth_rename (r : Renaming) (s : Scope) : (s.rename r).depth = s.depth := by
  cases s
  rfl

theorem value?_rename (hr : Function.Injective r.references) (s : Scope) (name : String) :
    (s.rename r).value? (r.references name) = s.value? name := by
  cases s
  exact Bindings.find?_rename hr _ name

theorem function?_rename (hr : Function.Injective r.functions) (s : Scope) (name : String) :
    (s.rename r).function? (r.functions name) = (s.function? name).map (Callable.rename r) := by
  obtain ⟨values, functions, limit, depth⟩ := s
  change (renameFunctions r functions).find? (r.functions name) =
    (functions.find? name).map (Callable.rename r)
  induction functions with
  | empty => rfl
  | bind bound function rest ih =>
    simp only [renameFunctions, Bindings.find?, ih, hr.eq_iff]
    split <;> rfl

/-- The parameters are bound in the renamed scope as they are in the scope. -/
theorem entered_rename (r : Renaming) (captured : Scope) (parameters : List String)
    (values : List Value) (caller : Scope) :
    (captured.rename r).entered (parameters.map r.references) values caller =
      (captured.entered parameters values caller).rename r := by
  obtain ⟨bound, functions, limit, depth⟩ := captured
  simp only [entered, rename, Bindings.insertAll_rename]

end Scope

end QuantityCalculus
