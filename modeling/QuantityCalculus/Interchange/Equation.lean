import QuantityCalculus.Equation.Basic
import QuantityCalculus.Interchange.Datum

/-!
Equations as documents: a record for every node, with a tag for what stands there.
-/
namespace QuantityCalculus

def Sign.ofDatum? (d : Datum) : Option Sign :=
  d.choice? Sign.all Sign.name

def BinaryOperator.ofDatum? (d : Datum) : Option BinaryOperator :=
  d.choice? BinaryOperator.all BinaryOperator.name

def Relation.ofDatum? (d : Datum) : Option Relation :=
  d.choice? Relation.all Relation.name

namespace Unreadable

def fields (token : Unreadable) : List (String × Datum) :=
  [("errorType", .text token.reason), ("start", .ofSize token.start), ("end", .ofSize token.stop)]

def toDatum (token : Unreadable) : Datum :=
  .record token.fields

/-- The token in a record whose layout may begin with a tag. -/
def ofParts? (layout : List String) (d : Datum) : Option Unreadable := do
  let reason ← d.part? layout "errorType"
  let start ← d.part? layout "start"
  let stop ← d.part? layout "end"
  return ⟨← reason.val.text?, ← start.val.size?, ← stop.val.size?⟩

def layout : List String :=
  ["errorType", "start", "end"]

def ofDatum? (d : Datum) : Option Unreadable :=
  ofParts? layout d

end Unreadable

namespace Equation

def tagged (tag : String) (fields : List (String × Datum)) : Datum :=
  .record (("type", .text tag) :: fields)

mutual

def toDatum : Equation → Datum
  | .number x => tagged "number" [("value", .ofFloat x)]
  | .reference name => tagged "variable" [("name", .text name)]
  | .block child => tagged "block" [("child", child.toDatum)]
  | .signed operator operand =>
    tagged "unary" [("operator", .text operator.name), ("value", operand.toDatum)]
  | .binary operator left right =>
    tagged "binary" [("operator", .text operator.name), ("a", left.toDatum), ("b", right.toDatum)]
  | .comparison relation left right =>
    tagged "comparison"
      [("operator", .text relation.name), ("a", left.toDatum), ("b", right.toDatum)]
  | .call name arguments =>
    tagged "function" [("name", .text name), ("args", .list (listToData arguments))]
  | .matrix rows => tagged "matrix" [("values", .list (rowsToData rows))]
  | .missingOperand => tagged "operand-placeholder" []
  | .missingOperator left right =>
    tagged "operator-placeholder" [("a", left.toDatum), ("b", right.toDatum)]
  | .missingSign operand => tagged "operator-unary-placeholder" [("value", operand.toDatum)]
  | .missingFunction arguments =>
    tagged "function-placeholder" [("args", .list (listToData arguments))]
  | .unreadable token => tagged "parser-error" token.fields

def listToData : List Equation → List Datum
  | [] => []
  | e :: rest => e.toDatum :: listToData rest

def rowsToData : List (List Equation) → List Datum
  | [] => []
  | row :: rest => .list (listToData row) :: rowsToData rest

end

/-- The fields that follow the tag, in order. -/
def layout? : String → Option (List String)
  | "number" => some ["type", "value"]
  | "variable" => some ["type", "name"]
  | "block" => some ["type", "child"]
  | "unary" => some ["type", "operator", "value"]
  | "binary" | "comparison" => some ["type", "operator", "a", "b"]
  | "function" => some ["type", "name", "args"]
  | "matrix" => some ["type", "values"]
  | "operand-placeholder" => some ["type"]
  | "operator-placeholder" => some ["type", "a", "b"]
  | "operator-unary-placeholder" => some ["type", "value"]
  | "function-placeholder" => some ["type", "args"]
  | "parser-error" => some ["type", "errorType", "start", "end"]
  | _ => none

/-- The tags in order. -/
def tags : List String :=
  ["number", "variable", "block", "unary", "binary", "comparison", "function", "matrix",
    "operand-placeholder", "operator-placeholder", "operator-unary-placeholder",
    "function-placeholder", "parser-error"]

/-- Inside another node a tag may be given by its place among the tags. -/
def tagName? (inner : Bool) : Datum → Option String
  | .text s => some s
  | .integer n => if inner ∧ 0 ≤ n then tags[n.toNat]? else none
  | _ => none

def tag? (inner : Bool) : Datum → Option String
  | .record fields => fields.lookup "type" >>= tagName? inner
  | .list (item :: _) => tagName? inner item
  | _ => none

/-- The equation in a datum that stands inside another node, or at the root. -/
def ofNode? (inner : Bool) (d : Datum) : Option Equation := do
  let tag ← tag? inner d
  let layout ← layout? tag
  let part (name : String) := d.part? layout name
  if !d.fits layout then none
  else match tag with
    | "number" => do
      let ⟨x, _⟩ ← part "value"
      return .number (← x.float?)
    | "variable" => do
      let ⟨name, _⟩ ← part "name"
      return .reference (← name.text?)
    | "block" => do
      let ⟨child, _⟩ ← part "child"
      return .block (← ofNode? true child)
    | "unary" => do
      let ⟨operator, _⟩ ← part "operator"
      let ⟨operand, _⟩ ← part "value"
      let operator ← operator.nodeChoice? Sign.all Sign.name
      return .signed operator (← ofNode? true operand)
    | "binary" => do
      let ⟨operator, _⟩ ← part "operator"
      let ⟨left, _⟩ ← part "a"
      let ⟨right, _⟩ ← part "b"
      let operator ← operator.nodeChoice? BinaryOperator.all BinaryOperator.name
      return .binary operator (← ofNode? true left) (← ofNode? true right)
    | "comparison" => do
      let ⟨relation, _⟩ ← part "operator"
      let ⟨left, _⟩ ← part "a"
      let ⟨right, _⟩ ← part "b"
      let relation ← relation.nodeChoice? Relation.all Relation.name
      return .comparison relation (← ofNode? true left) (← ofNode? true right)
    | "function" => do
      let ⟨name, _⟩ ← part "name"
      let ⟨arguments, _⟩ ← part "args"
      let name ← name.text?
      let items ← arguments.items?
      return .call name (← items.mapM fun ⟨c, _⟩ => ofNode? true c)
    | "matrix" => do
      let ⟨rows, _⟩ ← part "values"
      let rows ← rows.items?
      let rows ← rows.mapM fun ⟨row, _⟩ => do
        let cells ← row.items?
        cells.mapM fun ⟨c, _⟩ => ofNode? true c
      return .matrix rows
    | "operand-placeholder" => some .missingOperand
    | "operator-placeholder" => do
      let ⟨left, _⟩ ← part "a"
      let ⟨right, _⟩ ← part "b"
      return .missingOperator (← ofNode? true left) (← ofNode? true right)
    | "operator-unary-placeholder" => do
      let ⟨operand, _⟩ ← part "value"
      return .missingSign (← ofNode? true operand)
    | "function-placeholder" => do
      let ⟨arguments, _⟩ ← part "args"
      let items ← arguments.items?
      return .missingFunction (← items.mapM fun ⟨c, _⟩ => ofNode? true c)
    | "parser-error" => do return .unreadable (← Unreadable.ofParts? layout d)
    | _ => none
termination_by sizeOf d
decreasing_by all_goals omega

def ofDatum? (d : Datum) : Option Equation :=
  ofNode? false d

end Equation

end QuantityCalculus
