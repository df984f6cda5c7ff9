import QuantityCalculus.Builtin.Elementary
import QuantityCalculus.Builtin.Radical
import QuantityCalculus.Builtin.Series

/-!
The functions that are there from the start, with their names and arities.
-/
namespace QuantityCalculus

inductive Builtin where
  | abs
  | acos
  | asin
  | atan
  | atan2
  | ceil
  | cos
  | floor
  | ln
  | log
  | max
  | min
  | pow
  | root
  | round
  | sin
  | sqrt
  | sum
  | tan
  deriving DecidableEq, Repr

/-- How a function finds its value. -/
inductive Builtin.Rule where
  | numeric (apply : List Float → Option Float)
  | squareRoot
  | root
  | series

namespace Builtin

/-- All of them in the order of their names. -/
def all : List Builtin :=
  [.abs, .acos, .asin, .atan, .atan2, .ceil, .cos, .floor, .ln, .log, .max, .min, .pow, .root,
    .round, .sin, .sqrt, .sum, .tan]

def name : Builtin → String
  | .abs => "abs"
  | .acos => "acos"
  | .asin => "asin"
  | .atan => "atan"
  | .atan2 => "atan2"
  | .ceil => "ceil"
  | .cos => "cos"
  | .floor => "floor"
  | .ln => "ln"
  | .log => "log"
  | .max => "max"
  | .min => "min"
  | .pow => "pow"
  | .root => "root"
  | .round => "round"
  | .sin => "sin"
  | .sqrt => "sqrt"
  | .sum => "sum"
  | .tan => "tan"

def named? (name : String) : Option Builtin :=
  all.find? fun b => b.name = name

def arity : Builtin → Arity
  | .atan2 | .pow | .root => .exactly 2
  | .round | .log => ⟨1, some 2⟩
  | .max | .min => ⟨1, none⟩
  | .sum => .exactly 4
  | _ => .exactly 1

def rule : Builtin → Rule
  | .abs => .numeric (Elementary.unary Float.abs)
  | .acos => .numeric (Elementary.unary Float.acos)
  | .asin => .numeric (Elementary.unary Float.asin)
  | .atan => .numeric (Elementary.unary Float.atan)
  | .atan2 => .numeric (Elementary.binary Float.atan2)
  | .ceil => .numeric (Elementary.unary Float.ceil)
  | .cos => .numeric (Elementary.unary Float.cos)
  | .floor => .numeric (Elementary.unary Float.floor)
  | .ln => .numeric (Elementary.unary Float.log)
  | .log => .numeric Elementary.logarithm
  | .max => .numeric Elementary.largest
  | .min => .numeric Elementary.smallest
  | .pow => .numeric (Elementary.binary Float.pow)
  | .root => .root
  | .round => .numeric (Elementary.withDefault Elementary.roundTo 0.0)
  | .sin => .numeric (Elementary.unary Float.sin)
  | .sqrt => .squareRoot
  | .sum => .series
  | .tan => .numeric (Elementary.unary Float.tan)

def Rule.run : Rule → Call → Outcome Value
  | .numeric apply, call => do
    let xs ← call.numbers
    return .number (← Outcome.expect .missingArgument (apply xs))
  | .squareRoot, call => Radical.squareRoot call
  | .root, call => Radical.root call
  | .series, call => Series.series call

/-- The number of arguments is checked before any of them is evaluated. -/
def run (b : Builtin) (call : Call) : Outcome Value := do
  call.checkArity b.arity
  b.rule.run call

end Builtin

end QuantityCalculus
