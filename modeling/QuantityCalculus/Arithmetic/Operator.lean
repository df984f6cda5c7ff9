import QuantityCalculus.Arithmetic.Product

/-!
The arithmetic operators on values. Each joins the units by its own rule first and then the
quantities; every fault is blamed on the operator itself.
-/
namespace QuantityCalculus.Arithmetic

/-- The unit of the result is settled before the quantities are looked at. Quantities of kinds that
the operator has no rule for are refused. -/
def join (operator : BinaryOperator) (site : Equation)
    (units : CompoundUnit → CompoundUnit → Outcome CompoundUnit)
    (quantities : Quantity → Quantity → Outcome (Option Quantity)) (a b : Value) :
    Outcome Value := do
  let u ← units a.units b.units
  match ← quantities a.quantity b.quantity with
  | some q => return .ofParts u q
  | none => Outcome.blame site (.operandKinds operator a.quantity.kind b.quantity.kind)

def commonUnit (site : Equation) (u v : CompoundUnit) : Outcome CompoundUnit :=
  if u.sameUnit v then .ok u else Outcome.blame site (.unlikeUnits u v)

/-- A unit whose exponents leave the range is blamed on the unit of the left operand. -/
def unitInRange (site : Equation) (u : CompoundUnit) : Option CompoundUnit → Outcome CompoundUnit
  | some w => .ok w
  | none => Outcome.blame site (.exponentRange u)

/-- A number is added to every cell of a matrix. -/
def sum (site : Equation) : Quantity → Quantity → Outcome Quantity
  | .number x, .number y => .ok (.number (x + y))
  | .number x, .matrix m | .matrix m, .number x => .ok (.matrix (m.map fun cell => cell + x))
  | .matrix m, .matrix n =>
    if m.shape = n.shape then do
      return .matrix (← Outcome.expect .shapeMismatch (m.zipWith? n fun x y => x + y))
    else Outcome.blame site (.unlikeShapes m.shape n.shape)

def plus (site : Equation) (a b : Value) : Outcome Value :=
  join .plus site (commonUnit site) (fun p q => some <$> sum site p q) a b

/-- Subtraction adds the negated right operand. -/
def minus (site : Equation) (a b : Value) : Outcome Value :=
  plus site a b.negate

/-- How two column vectors multiply. -/
inductive VectorRule where
  | ambiguous
  | scalar
  | vector
  deriving DecidableEq, Repr

def VectorRule.operator : VectorRule → BinaryOperator
  | .ambiguous => .juxtaposition
  | .scalar => .dot
  | .vector => .cross

def columnProduct (site : Equation) (rule : VectorRule) (m n : Matrix) : Outcome Quantity :=
  match rule with
  | .ambiguous => Outcome.blame site .ambiguousVectors
  | .scalar => do return .number (← scalarProduct site m n)
  | .vector => do return .matrix (← vectorProduct site m n)

def product (site : Equation) (rule : VectorRule) : Quantity → Quantity → Outcome Quantity
  | .number x, .number y => .ok (.number (x * y))
  | .number x, .matrix m | .matrix m, .number x => .ok (.matrix (m.map fun cell => cell * x))
  | .matrix m, .matrix n =>
    if m.isColumn && n.isColumn then columnProduct site rule m n
    else do return .matrix (← matrixProduct site m n)

def multiply (site : Equation) (rule : VectorRule) (a b : Value) : Outcome Value :=
  join rule.operator site (fun u v => unitInRange site u (u.multiply? v))
    (fun p q => some <$> product site rule p q) a b

/-- A divisor with a zero in it is refused, but two matrices are refused before that. -/
def quotient (site : Equation) : Quantity → Quantity → Outcome Quantity
  | .matrix _, .matrix _ => Outcome.blame site .matrixDivisor
  | .number x, .number y =>
    if y == 0.0 then Outcome.blame site .zeroDivisor else .ok (.number (x / y))
  | .matrix m, .number y =>
    if y == 0.0 then Outcome.blame site .zeroDivisor else .ok (.matrix (m.map fun cell => cell / y))
  | .number x, .matrix m =>
    if m.containsZero then Outcome.blame site .zeroDivisor
    else .ok (.matrix (m.map fun cell => x / cell))

def divide (site : Equation) (a b : Value) : Outcome Value :=
  join .fraction site (fun u v => unitInRange site u (u.divide? v))
    (fun p q => some <$> quotient site p q) a b

/-- There is no power with a matrix as exponent. -/
def raise? : Quantity → Quantity → Option Quantity
  | .number x, .number y => some (.number (x.pow y))
  | .matrix m, .number y => some (.matrix (m.map fun cell => cell.pow y))
  | _, .matrix _ => none

/-- The exponent is a bare number, which is checked before anything else. -/
def power (site : Equation) (a b : Value) : Outcome Value :=
  match b with
  | .number y =>
    join .power site (fun u _ => unitInRange site u (u.power? y)) (fun p q => .ok (raise? p q)) a
      (.number y)
  | other => Outcome.blame site (.exponentKind other.kind)

def apply (operator : BinaryOperator) (site : Equation) (a b : Value) : Outcome Value :=
  match operator with
  | .plus => plus site a b
  | .minus => minus site a b
  | .plusMinus => Outcome.blame site .plusMinus
  | .juxtaposition => multiply site .ambiguous a b
  | .dot => multiply site .scalar a b
  | .cross => multiply site .vector a b
  | .fraction | .inlineDivision => divide site a b
  | .power => power site a b

end QuantityCalculus.Arithmetic
