import QuantityCalculus.Arithmetic.Operator
import QuantityCalculus.Call

/-!
Sums over a range of integers. The term is evaluated once for every integer of the range, under a
binding of the index that lasts for this term only.
-/
namespace QuantityCalculus.Series

/-- Every integer of at most this magnitude, which is `2 ^ 53`, is a double. -/
def largestBound : Int :=
  9007199254740992

def bound? (v : Value) : Option Int := do
  let n ← v.integer?
  if n.natAbs ≤ largestBound then some n else none

/-- The bound in the argument at `place`, which `cause` blames for being no integer. -/
def bound (call : Call) (place : Nat) (cause : String → Cause) (argument : Argument) :
    Outcome Int := do
  match bound? (← call.valueOf argument) with
  | some n => return n
  | none => call.blameArgument place (cause call.name)

def termAt (call : Call) (index : String) (term : Argument) (i : Int) : Outcome Value :=
  term.value (call.bindings.insert index (.number (Float.ofInt i)))

/-- Adds the terms at the `count` integers from `i` on. -/
def accumulate (call : Call) (index : String) (term : Argument) :
    Nat → Int → Value → Outcome Value
  | 0, _, sum => .ok sum
  | count + 1, i, sum => do
    let t ← termAt call index term i
    accumulate call index term count (i + 1) (← Arithmetic.plus call.site sum t)

/-- The terms from `low` to `high`; the first of them is not added to anything. -/
def between (call : Call) (index : String) (term : Argument) (low high : Int) : Outcome Value :=
  if low ≤ high then do
    accumulate call index term (high - low).toNat (low + 1) (← termAt call index term low)
  else .error (.defect .emptySeries)

/-- The bounds may come in either order. -/
def series (call : Call) : Outcome Value :=
  match call.arguments with
  | [index, first, last, term] =>
    match index.tree with
    | .reference name => do
      let m ← bound call 1 .seriesStart first
      let n ← bound call 2 .seriesEnd last
      between call name term (min m n) (max m n)
    | other => call.blameArgument 0 (.seriesVariable call.name other.rootName)
  | _ => .error (.defect .missingArgument)

end QuantityCalculus.Series
