/-!
Equation trees, complete or not: a tree under edit may hold gaps, and a part that could not be
read stands in it as a token.
-/
namespace QuantityCalculus

inductive Sign where
  | positive
  | negative
  | plusMinus
  deriving DecidableEq, Repr

inductive BinaryOperator where
  | plus
  | minus
  | plusMinus
  /-- Two factors side by side. -/
  | juxtaposition
  | dot
  | cross
  | fraction
  | inlineDivision
  | power
  deriving DecidableEq, Repr

inductive Relation where
  | equals
  | lessThan
  | lessThanEquals
  | greaterThan
  | greaterThanEquals
  | approximates
  deriving DecidableEq, Repr

/-- A stretch of text that is no equation, and why. -/
structure Unreadable where
  reason : String
  start : Nat
  stop : Nat
  deriving DecidableEq, Repr

inductive Equation where
  | number (value : Float)
  | reference (name : String)
  | block (child : Equation)
  | signed (operator : Sign) (operand : Equation)
  | binary (operator : BinaryOperator) (left right : Equation)
  | comparison (relation : Relation) (left right : Equation)
  | call (name : String) (arguments : List Equation)
  | matrix (rows : List (List Equation))
  | missingOperand
  | missingOperator (left right : Equation)
  | missingSign (operand : Equation)
  | missingFunction (arguments : List Equation)
  | unreadable (token : Unreadable)
  deriving Repr

def Sign.name : Sign → String
  | .positive => "positive"
  | .negative => "negative"
  | .plusMinus => "positive-negative"

def BinaryOperator.name : BinaryOperator → String
  | .plus => "plus"
  | .minus => "minus"
  | .plusMinus => "plus-minus"
  | .juxtaposition => "multiply-implicit"
  | .dot => "multiply-dot"
  | .cross => "multiply-cross"
  | .fraction => "divide-fraction"
  | .inlineDivision => "divide-inline"
  | .power => "power"

def Relation.name : Relation → String
  | .equals => "equals"
  | .lessThan => "less-than"
  | .lessThanEquals => "less-than-equals"
  | .greaterThan => "greater-than"
  | .greaterThanEquals => "greater-than-equals"
  | .approximates => "approximates"

def Sign.all : List Sign :=
  [.positive, .negative, .plusMinus]

def BinaryOperator.all : List BinaryOperator :=
  [.plus, .minus, .plusMinus, .juxtaposition, .dot, .cross, .fraction, .inlineDivision, .power]

def Relation.all : List Relation :=
  [.equals, .lessThan, .lessThanEquals, .greaterThan, .greaterThanEquals, .approximates]

def Unreadable.text (token : Unreadable) : String :=
  token.reason ++ " at " ++ toString token.start ++ ".." ++ toString token.stop

namespace Equation

/-- What stands at the root of the tree. -/
def rootName : Equation → String
  | .number _ => "number"
  | .reference _ => "variable"
  | .block _ => "block"
  | .signed operator _ => operator.name
  | .binary operator _ _ => operator.name
  | .comparison relation _ _ => relation.name
  | .call _ _ => "function"
  | .matrix _ => "matrix"
  | .missingOperand => "operand-placeholder"
  | .missingOperator _ _ => "operator-placeholder"
  | .missingSign _ => "operator-unary-placeholder"
  | .missingFunction _ => "function-placeholder"
  | .unreadable _ => "parser-error"

mutual

/-- The same tree, its numbers compared as floating-point numbers. -/
def equal : Equation → Equation → Bool
  | .number x, .number y => x == y
  | .reference m, .reference n => m == n
  | .block a, .block b => a.equal b
  | .signed o a, .signed p b => o == p && a.equal b
  | .binary o a b, .binary p c d => o == p && a.equal c && b.equal d
  | .comparison r a b, .comparison s c d => r == s && a.equal c && b.equal d
  | .call m as, .call n bs => m == n && listEqual as bs
  | .matrix rs, .matrix ss => rowsEqual rs ss
  | .missingOperand, .missingOperand => true
  | .missingOperator a b, .missingOperator c d => a.equal c && b.equal d
  | .missingSign a, .missingSign b => a.equal b
  | .missingFunction as, .missingFunction bs => listEqual as bs
  | .unreadable t, .unreadable u => t == u
  | _, _ => false

def listEqual : List Equation → List Equation → Bool
  | [], [] => true
  | a :: as, b :: bs => a.equal b && listEqual as bs
  | _, _ => false

def rowsEqual : List (List Equation) → List (List Equation) → Bool
  | [], [] => true
  | r :: rs, s :: ss => listEqual r s && rowsEqual rs ss
  | _, _ => false

end

end Equation

end QuantityCalculus
