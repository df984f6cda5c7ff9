import QuantityCalculus.Fault.Text
import QuantityCalculus.Interchange.Equation
import QuantityCalculus.Interchange.Value

/-!
Faults as documents. A cause without details is its name alone, and any other cause is a record
whose only field is its name.
-/
namespace QuantityCalculus

namespace Arity

def layout : List String :=
  ["min", "max"]

def toDatum (a : Arity) : Datum :=
  .record [("min", .ofSize a.least), ("max", .ofOptionalSize a.most)]

def ofDatum? (d : Datum) : Option Arity := do
  let least ← d.part? layout "min"
  let most ← Datum.optionalSize? ((d.part? layout "max").map Subtype.val)
  return ⟨← least.val.size?, most⟩

end Arity

/-- The depth limit among the options of an evaluation. -/
def limitToDatum (limit : Option Nat) : Datum :=
  .record [("maxDepth", .ofOptionalSize limit)]

/-- Every option may be left out. -/
def limitOfDatum? (d : Datum) : Option (Option Nat) :=
  if d.fits [] || d.fits ["maxDepth"] then
    Datum.optionalSize? ((d.part? ["maxDepth"] "maxDepth").map Subtype.val)
  else none

namespace Cause

def variant (tag : String) (fields : List (String × Datum)) : Datum :=
  .record [(tag, .record fields)]

def toDatum : Cause → Datum
  | .unknownFunction name => variant "FunctionUnknown" [("name", .text name)]
  | .argumentCount name arity found =>
    variant "FunctionArgLength"
      [("name", .text name), ("arity", arity.toDatum), ("found", .ofSize found)]
  | .numbersOnly name => variant "FunctionNumberOnly" [("name", .text name)]
  | .negativeRadicand name => variant "FunctionSqrt1Positive" [("name", .text name)]
  | .rootIndex name => variant "FunctionRoot1PositiveInteger" [("name", .text name)]
  | .evenRootOfNegative name => variant "FunctionRoot2Positive" [("name", .text name)]
  | .seriesVariable name found =>
    variant "FunctionSum1Variable" [("name", .text name), ("found", .text found)]
  | .seriesStart name => variant "FunctionSum2Integer" [("name", .text name)]
  | .seriesEnd name => variant "FunctionSum3Integer" [("name", .text name)]
  | .unknownVariable name => variant "VariableUnknown" [("name", .text name)]
  | .unlikeUnits left right =>
    variant "PlusDifferentUnits" [("a", left.toDatum), ("b", right.toDatum)]
  | .unlikeShapes left right =>
    variant "PlusMatrixMismatch" [("a", left.toDatum), ("b", right.toDatum)]
  | .plusMinus => .text "PlusminusUnhandled"
  | .scalarProductLengths left right =>
    variant "ScalarProductUnbalanced" [("a", .ofSize left), ("b", .ofSize right)]
  | .vectorProductLengths left right =>
    variant "VectorProduct3VectorOnly" [("a", .ofSize left), ("b", .ofSize right)]
  | .matrixProductShapes left right =>
    variant "MatrixProductMatrixMismatch" [("a", left.toDatum), ("b", right.toDatum)]
  | .ambiguousVectors => .text "MultiplyImplicitNoVectors"
  | .zeroDivisor => .text "DivideNotZero"
  | .matrixDivisor => .text "DivideMatrixMatrix"
  | .exponentKind found => variant "PowerUnitlessNumberExponent" [("found", .text found.text)]
  | .exponentRange units => variant "UnitExponentRange" [("units", units.toDatum)]
  | .operandKinds operator left right =>
    variant "OperatorInvalidArguments"
      [("operator", .text operator.name), ("a", .text left.text), ("b", .text right.text)]
  | .comparison relation => variant "NoComparison" [("operator", .text relation.name)]
  | .cellUnits expected found =>
    variant "MatrixDifferentUnits" [("expected", expected.toDatum), ("found", found.toDatum)]
  | .nestedMatrix => .text "MatrixNoNesting"
  | .malformedMatrix => .text "MatrixMalformed"
  | .incomplete => .text "Placeholder"
  | .unreadable token => .record [("InvalidEquation", token.toDatum)]
  | .depth limit => variant "DepthExceeded" [("limit", .ofSize limit)]

def ofName? : String → Option Cause
  | "PlusminusUnhandled" => some .plusMinus
  | "MultiplyImplicitNoVectors" => some .ambiguousVectors
  | "DivideNotZero" => some .zeroDivisor
  | "DivideMatrixMatrix" => some .matrixDivisor
  | "MatrixNoNesting" => some .nestedMatrix
  | "MatrixMalformed" => some .malformedMatrix
  | "Placeholder" => some .incomplete
  | _ => none

/-- A cause with details, which must be the fields of a record. -/
def ofVariant? (tag : String) (fields : List (String × Datum)) : Option Cause :=
  let text (name : String) := fields.lookup name >>= Datum.text?
  let size (name : String) := fields.lookup name >>= Datum.size?
  let units (name : String) := fields.lookup name >>= CompoundUnit.ofDatum?
  let shape (name : String) := fields.lookup name >>= Shape.ofDatum?
  let kind (name : String) := fields.lookup name >>= Kind.ofDatum?
  match tag with
  | "FunctionUnknown" => do return .unknownFunction (← text "name")
  | "FunctionArgLength" => do
    return .argumentCount (← text "name") (← fields.lookup "arity" >>= Arity.ofDatum?)
      (← size "found")
  | "FunctionNumberOnly" => do return .numbersOnly (← text "name")
  | "FunctionSqrt1Positive" => do return .negativeRadicand (← text "name")
  | "FunctionRoot1PositiveInteger" => do return .rootIndex (← text "name")
  | "FunctionRoot2Positive" => do return .evenRootOfNegative (← text "name")
  | "FunctionSum1Variable" => do return .seriesVariable (← text "name") (← text "found")
  | "FunctionSum2Integer" => do return .seriesStart (← text "name")
  | "FunctionSum3Integer" => do return .seriesEnd (← text "name")
  | "VariableUnknown" => do return .unknownVariable (← text "name")
  | "PlusDifferentUnits" => do return .unlikeUnits (← units "a") (← units "b")
  | "PlusMatrixMismatch" => do return .unlikeShapes (← shape "a") (← shape "b")
  | "ScalarProductUnbalanced" => do return .scalarProductLengths (← size "a") (← size "b")
  | "VectorProduct3VectorOnly" => do return .vectorProductLengths (← size "a") (← size "b")
  | "MatrixProductMatrixMismatch" => do return .matrixProductShapes (← shape "a") (← shape "b")
  | "PowerUnitlessNumberExponent" => do return .exponentKind (← kind "found")
  | "UnitExponentRange" => do return .exponentRange (← units "units")
  | "OperatorInvalidArguments" => do
    return .operandKinds (← fields.lookup "operator" >>= BinaryOperator.ofDatum?) (← kind "a")
      (← kind "b")
  | "NoComparison" => do return .comparison (← fields.lookup "operator" >>= Relation.ofDatum?)
  | "MatrixDifferentUnits" => do return .cellUnits (← units "expected") (← units "found")
  | "DepthExceeded" => do return .depth (← size "limit")
  | _ => none

def ofDatum? : Datum → Option Cause
  | .text tag => ofName? tag
  | .record [(tag, .null)] => ofName? tag
  | .record [("InvalidEquation", contents)] =>
    (Unreadable.ofDatum? contents).map Cause.unreadable
  | .record [(tag, .record fields)] => ofVariant? tag fields
  | _ => none

end Cause

namespace Fault

def layout : List String :=
  ["kind", "node"]

def toDatum (f : Fault) : Datum :=
  .record [("kind", f.cause.toDatum), ("node", f.site.toDatum)]

def ofDatum? (d : Datum) : Option Fault := do
  let cause ← d.part? layout "kind"
  let site ← d.part? layout "node"
  return ⟨← Cause.ofDatum? cause.val, ← Equation.ofDatum? site.val⟩

end Fault

end QuantityCalculus
