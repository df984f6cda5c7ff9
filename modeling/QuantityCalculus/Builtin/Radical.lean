import QuantityCalculus.Call

/-!
Square roots and roots of any index. Both take a scalar in any unit and divide the exponents of
the unit by the index.
-/
namespace QuantityCalculus.Radical

/-- The unit and the number of an argument that is no matrix. -/
def scalar (call : Call) (index : Nat) (argument : Argument) : Outcome (CompoundUnit × Float) := do
  let v ← call.valueOf argument
  match v.quantity with
  | .number x => return (v.units, x)
  | .matrix _ => call.blameArgument index (.numbersOnly call.name)

/-- The value of a root whose radicand is the argument at `place`. -/
def rooted (call : Call) (place : Nat) (units : CompoundUnit) (index : Nat) (x : Float) :
    Outcome Value :=
  match units.root? index with
  | some w => .ok (.ofParts w (.number x))
  | none => call.blameArgument place (.exponentRange units)

def squareRoot (call : Call) : Outcome Value :=
  match call.arguments with
  | [radicand] => do
    let (units, x) ← scalar call 0 radicand
    if x < 0.0 then call.blameArgument 0 (.negativeRadicand call.name)
    else rooted call 0 units 2 x.sqrt
  | _ => .error (.defect .missingArgument)

/-- The largest index is `2 ^ 32 - 1`. -/
def largestIndex : Int :=
  4294967295

/-- The index of a root is a positive integer of at most 32 bits. -/
def index? (x : Float) : Option Nat := do
  let n ← Binary64.integer? x
  if 0 < n ∧ n ≤ largestIndex then some n.toNat else none

def positive? (n : Nat) : Option Nat :=
  if n = 0 then none else some n

/-- Odd roots keep the sign of the radicand. -/
def signedRoot (index x : Float) : Float :=
  Binary64.signum x * x.abs.pow (1.0 / index)

/-- Both arguments are evaluated before the index is checked. -/
def root (call : Call) : Outcome Value :=
  match call.arguments with
  | [index, radicand] => do
    match ← call.valueOf index with
    | .number k =>
      let (units, x) ← scalar call 1 radicand
      match index? k with
      | none => call.blameArgument 0 (.rootIndex call.name)
      | some n =>
        if n % 2 = 0 ∧ x < 0.0 then call.blameArgument 1 (.evenRootOfNegative call.name)
        else do
          let degree ← Outcome.expect .zeroIndex (positive? n)
          rooted call 1 units degree (signedRoot k x)
    | _ => call.blameArgument 0 (.numbersOnly call.name)
  | _ => .error (.defect .missingArgument)

end QuantityCalculus.Radical
