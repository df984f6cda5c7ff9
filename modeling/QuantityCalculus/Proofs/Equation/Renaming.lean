import QuantityCalculus.Call
import QuantityCalculus.Proofs.Equation.Parts
import QuantityCalculus.Proofs.Outcome

/-!
New names for the variables and the functions of an equation, and for those that a fault speaks of.
-/
namespace QuantityCalculus

structure Renaming where
  references : String → String
  functions : String → String

namespace Renaming

def identity : Renaming :=
  ⟨id, id⟩

/-- Another name for one variable. -/
def ofVariable (old new : String) : Renaming :=
  ⟨fun name => if name = old then new else name, id⟩

/-- One name for all functions. -/
def calling (name : String) : Renaming :=
  ⟨id, fun _ => name⟩

end Renaming

namespace Equation

mutual

def rename (r : Renaming) : Equation → Equation
  | .number x => .number x
  | .reference name => .reference (r.references name)
  | .block a => .block (a.rename r)
  | .signed operator a => .signed operator (a.rename r)
  | .binary operator a b => .binary operator (a.rename r) (b.rename r)
  | .comparison relation a b => .comparison relation (a.rename r) (b.rename r)
  | .call name arguments => .call (r.functions name) (renameAll r arguments)
  | .matrix rows => .matrix (renameRows r rows)
  | .missingOperand => .missingOperand
  | .missingOperator a b => .missingOperator (a.rename r) (b.rename r)
  | .missingSign a => .missingSign (a.rename r)
  | .missingFunction arguments => .missingFunction (renameAll r arguments)
  | .unreadable token => .unreadable token

def renameAll (r : Renaming) : List Equation → List Equation
  | [] => []
  | tree :: rest => tree.rename r :: renameAll r rest

def renameRows (r : Renaming) : List (List Equation) → List (List Equation)
  | [] => []
  | row :: rest => renameAll r row :: renameRows r rest

end

theorem renameAll_eq_map (r : Renaming) (trees : List Equation) :
    renameAll r trees = trees.map (rename r) := by
  induction trees with
  | nil => rfl
  | cons tree rest ih => rw [renameAll, ih, List.map_cons]

theorem renameRows_eq_map (r : Renaming) (rows : List (List Equation)) :
    renameRows r rows = rows.map (List.map (rename r)) := by
  induction rows with
  | nil => rfl
  | cons row rest ih => rw [renameRows, renameAll_eq_map, ih, List.map_cons]

@[simp] theorem rename_call (r : Renaming) (name : String) (arguments : List Equation) :
    (Equation.call name arguments).rename r =
      .call (r.functions name) (arguments.map (rename r)) := by
  rw [rename, renameAll_eq_map]

@[simp] theorem rename_matrix (r : Renaming) (rows : List (List Equation)) :
    (Equation.matrix rows).rename r = .matrix (rows.map (List.map (rename r))) := by
  rw [rename, renameRows_eq_map]

/-- What stands at the root is told without names. -/
@[simp] theorem rootName_rename (r : Renaming) (e : Equation) :
    (e.rename r).rootName = e.rootName := by
  cases e <;> rfl

end Equation

/-- A cause names what the call or the variable to blame was called. -/
def Cause.rename (r : Renaming) : Cause → Cause
  | .unknownFunction name => .unknownFunction (r.functions name)
  | .argumentCount name arity found => .argumentCount (r.functions name) arity found
  | .numbersOnly name => .numbersOnly (r.functions name)
  | .negativeRadicand name => .negativeRadicand (r.functions name)
  | .rootIndex name => .rootIndex (r.functions name)
  | .evenRootOfNegative name => .evenRootOfNegative (r.functions name)
  | .seriesVariable name found => .seriesVariable (r.functions name) found
  | .seriesStart name => .seriesStart (r.functions name)
  | .seriesEnd name => .seriesEnd (r.functions name)
  | .unknownVariable name => .unknownVariable (r.references name)
  | cause => cause

@[simp] theorem Cause.rename_identity (cause : Cause) : cause.rename .identity = cause := by
  cases cause <;> rfl

def Fault.rename (r : Renaming) (f : Fault) : Fault :=
  ⟨f.cause.rename r, f.site.rename r⟩

def Stop.rename (r : Renaming) : Stop → Stop
  | .fault f => .fault (f.rename r)
  | .defect d => .defect d

def Violation.rename (r : Renaming) (violation : Violation) : Violation :=
  ⟨violation.index, violation.cause.rename r⟩

theorem Violation.rename_identity : Violation.rename .identity = id := by
  funext violation
  rw [rename, Cause.rename_identity, id]

/-- Blame for one tree goes with the renamed blame for another. -/
def Renaming.Moves (r : Renaming) (R : Fault → Fault → Prop) (p q : Equation) : Prop :=
  ∀ cause, R ⟨cause, p⟩ ⟨cause.rename r, q⟩

theorem Renaming.Moves.blame {r : Renaming} {R : Fault → Fault → Prop} {p q : Equation}
    (h : r.Moves R p q) {α : Type} (cause : Cause) :
    (Outcome.blame p cause : Outcome α).Parallel R (Outcome.blame q (cause.rename r)) :=
  .fault (h cause)

end QuantityCalculus
