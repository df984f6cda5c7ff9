import QuantityCalculus.Fault.Basic
import QuantityCalculus.Value.Text

/-!
Faults as text: a stable code, one sentence, and the details by name.
-/
namespace QuantityCalculus

def Arity.text (a : Arity) : String :=
  match a.most with
  | some most => if most = a.least then toString most else toString a.least ++ "-" ++ toString most
  | none => "at least " ++ toString a.least

namespace Cause

def code : Cause → String
  | .unknownFunction _ => "functionUnknown"
  | .argumentCount _ _ _ => "functionArgLength"
  | .numbersOnly _ => "functionNumberOnly"
  | .negativeRadicand _ => "functionSqrt1Positive"
  | .rootIndex _ => "functionRoot1PositiveInteger"
  | .evenRootOfNegative _ => "functionRoot2Positive"
  | .seriesVariable _ _ => "functionSum1Variable"
  | .seriesStart _ => "functionSum2Integer"
  | .seriesEnd _ => "functionSum3Integer"
  | .unknownVariable _ => "variableUnknown"
  | .unlikeUnits _ _ => "plusDifferentUnits"
  | .unlikeShapes _ _ => "plusMatrixMismatch"
  | .plusMinus => "plusminusUnhandled"
  | .scalarProductLengths _ _ => "scalarProductUnbalanced"
  | .vectorProductLengths _ _ => "vectorProduct3VectorOnly"
  | .matrixProductShapes _ _ => "matrixProductMatrixMismatch"
  | .ambiguousVectors => "multiplyImplicitNoVectors"
  | .zeroDivisor => "divideNotZero"
  | .matrixDivisor => "divideMatrixMatrix"
  | .exponentKind _ => "powerUnitlessNumberExponent"
  | .exponentRange _ => "unitExponentRange"
  | .operandKinds _ _ _ => "operatorInvalidArguments"
  | .comparison _ => "noComparison"
  | .cellUnits _ _ => "matrixDifferentUnits"
  | .nestedMatrix => "matrixNoNesting"
  | .malformedMatrix => "matrixMalformed"
  | .incomplete => "placeholder"
  | .unreadable _ => "invalidEquation"
  | .depth _ => "depthExceeded"

def message : Cause → String
  | .unknownFunction name => "unknown function \"" ++ name ++ "\""
  | .argumentCount name arity found =>
    "function \"" ++ name ++ "\" takes " ++ arity.text ++ " arguments, not " ++ toString found
  | .numbersOnly name => "arguments of " ++ name ++ " must be numbers"
  | .negativeRadicand name => "radicand of " ++ name ++ " cannot be negative"
  | .rootIndex name => "index of " ++ name ++ " must be a positive integer"
  | .evenRootOfNegative name =>
    "radicand of " ++ name ++ " cannot be negative when index is even"
  | .seriesVariable name found =>
    "first argument of " ++ name ++ " must be a variable, not " ++ found
  | .seriesStart name => "second argument of " ++ name ++ " must be an integer"
  | .seriesEnd name => "third argument of " ++ name ++ " must be an integer"
  | .unknownVariable name => "unknown variable \"" ++ name ++ "\""
  | .unlikeUnits left right => "cannot add " ++ left.text ++ " and " ++ right.text
  | .unlikeShapes left right =>
    "cannot add a " ++ left.text ++ " matrix and a " ++ right.text ++ " matrix"
  | .plusMinus => "cannot handle ± operator"
  | .scalarProductLengths left right =>
    "scalar product of vectors with lengths " ++ toString left ++ " and " ++ toString right
  | .vectorProductLengths left right =>
    "vector product needs two 3-vectors, got lengths " ++ toString left ++ " and " ++ toString right
  | .matrixProductShapes left right =>
    "cannot multiply a " ++ left.text ++ " matrix with a " ++ right.text ++ " matrix"
  | .ambiguousVectors => "implicit multiplication of two vectors is ambiguous"
  | .zeroDivisor => "cannot divide by zero"
  | .matrixDivisor => "cannot divide a matrix by a matrix"
  | .exponentKind found => "exponent must be a unitless number, not a " ++ found.text
  | .exponentRange units => "unit exponents of " ++ units.text ++ " leave the representable range"
  | .operandKinds operator left right =>
    "operator " ++ operator.name ++ " cannot take " ++ left.text ++ " and " ++ right.text
  | .comparison relation => "cannot resolve comparison (" ++ relation.name ++ ")"
  | .cellUnits expected found =>
    "matrix cells must share one unit: expected " ++ expected.text ++ ", found " ++ found.text
  | .nestedMatrix => "cannot resolve nested matrices"
  | .malformedMatrix => "matrix literal must be non-empty and rectangular"
  | .incomplete => "equation is incomplete"
  | .unreadable token => "equation failed to parse: " ++ token.text
  | .depth limit => "equation nests deeper than " ++ toString limit ++ " levels"

/-- The details of a cause, in the order in which they are reported. -/
def details : Cause → List (String × String)
  | .unknownFunction name | .numbersOnly name | .negativeRadicand name | .rootIndex name
  | .evenRootOfNegative name | .seriesStart name | .seriesEnd name | .unknownVariable name =>
    [("name", name)]
  | .argumentCount name arity found =>
    [("name", name), ("minArgs", toString arity.least),
      ("maxArgs", match arity.most with
        | some most => toString most
        | none => "∞"),
      ("found", toString found)]
  | .seriesVariable name found => [("name", name), ("found", found)]
  | .unlikeUnits left right => [("aUnits", left.text), ("bUnits", right.text)]
  | .unlikeShapes left right | .matrixProductShapes left right =>
    [("aDimensions", left.text), ("bDimensions", right.text)]
  | .scalarProductLengths left right | .vectorProductLengths left right =>
    [("aLength", toString left), ("bLength", toString right)]
  | .exponentKind found => [("found", found.text)]
  | .exponentRange units => [("units", units.text)]
  | .operandKinds operator left right =>
    [("operator", operator.name), ("a", left.text), ("b", right.text)]
  | .comparison relation => [("operator", relation.name)]
  | .cellUnits expected found => [("expected", expected.text), ("found", found.text)]
  | .unreadable token =>
    [("errorType", token.reason), ("start", toString token.start), ("end", toString token.stop)]
  | .depth limit => [("limit", toString limit)]
  | .plusMinus | .ambiguousVectors | .zeroDivisor | .matrixDivisor | .nestedMatrix
  | .malformedMatrix | .incomplete => []

end Cause

end QuantityCalculus
