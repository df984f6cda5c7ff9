/-!
The elementary functions of bare numbers. Each takes the list of its arguments and has no value
on a list that is too short.
-/
namespace QuantityCalculus.Elementary

def unary (f : Float → Float) : List Float → Option Float
  | x :: _ => some (f x)
  | [] => none

def binary (f : Float → Float → Float) : List Float → Option Float
  | x :: y :: _ => some (f x y)
  | _ => none

/-- A second argument that may be left out. -/
def withDefault (f : Float → Float → Float) (default : Float) : List Float → Option Float
  | [x] => some (f x default)
  | x :: y :: _ => some (f x y)
  | [] => none

/-- Rounds to `places` decimal places, halves away from zero. -/
def roundTo (x places : Float) : Float :=
  let factor := Float.pow 10.0 places
  (x * factor).round / factor

def infinity : Float :=
  1.0 / 0.0

/-- The larger of two numbers; NaN counts only against itself. -/
def larger (x y : Float) : Float :=
  if x.isNaN then y else if x < y then y else x

def smaller (x y : Float) : Float :=
  if x.isNaN then y else if y < x then y else x

def largest (xs : List Float) : Option Float :=
  some (xs.foldl larger (-infinity))

def smallest (xs : List Float) : Option Float :=
  some (xs.foldl smaller infinity)

/-- The decimal logarithm, or the logarithm to a given base. -/
def logarithm : List Float → Option Float
  | [x] => some x.log10
  | x :: base :: _ => some (x.log / base.log)
  | [] => none

end QuantityCalculus.Elementary
