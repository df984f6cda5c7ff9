import QuantityCalculus.Interchange.Datum
import QuantityCalculus.Value.Text

/-!
Units and values as documents. What is read back is taken as it stands: the sizes of a matrix are
not compared with its cells, and a measured value may have any unit.
-/
namespace QuantityCalculus

def Exponent.toDatum (e : Exponent) : Datum :=
  .list [.integer e.numerator, .integer e.denominator]

/-- A pair of 64-bit integers that is kept unreduced; the denominator is not zero. -/
def Exponent.ofDatum? : Datum → Option Exponent
  | .list [.integer n, .integer d] => do
    let n ← inWord? n
    let d ← inWord? d
    if d = 0 then none else some ⟨n, d⟩
  | _ => none

def CompoundUnit.toDatum (u : CompoundUnit) : Datum :=
  .record (u.entries.map fun (symbol, e) => (symbol, e.toDatum))

/-- Entries with exponent zero are left out. -/
def CompoundUnit.ofDatum? : Datum → Option CompoundUnit
  | .record fields => do
    let entries ← fields.mapM fun (symbol, d) => do
      return (symbol, ← Exponent.ofDatum? d)
    return .ofEntries entries
  | _ => none

def Kind.all : List Kind :=
  [.number, .matrix, .unit]

def Kind.ofDatum? (d : Datum) : Option Kind :=
  d.choice? Kind.all Kind.text

namespace Shape

def toDatum (s : Shape) : Datum :=
  .record [("rows", .ofSize s.rows), ("cols", .ofSize s.cols)]

def ofDatum? (d : Datum) : Option Shape := do
  let rows ← d.part? ["rows", "cols"] "rows"
  let cols ← d.part? ["rows", "cols"] "cols"
  return ⟨← rows.val.size?, ← cols.val.size?⟩

end Shape

namespace Matrix

def toDatum (m : Matrix) : Datum :=
  .record [("rows", .ofSize m.rows), ("cols", .ofSize m.cols),
    ("cells", .list (m.cells.map fun row => .list (row.map Datum.ofFloat)))]

def rowOfDatum? : Datum → Option (List Float)
  | .list items => items.mapM Datum.float?
  | _ => none

def cellsOfDatum? : Datum → Option (List (List Float))
  | .list items => items.mapM rowOfDatum?
  | _ => none

def layout : List String :=
  ["rows", "cols", "cells"]

def ofDatum? (d : Datum) : Option Matrix := do
  let rows ← d.part? layout "rows"
  let cols ← d.part? layout "cols"
  let cells ← d.part? layout "cells"
  return ⟨← rows.val.size?, ← cols.val.size?, ← cellsOfDatum? cells.val⟩

end Matrix

/-- A record with a tag and the contents that the tag calls for. -/
def Datum.adjacent (tag : Kind) (contents : Datum) : Datum :=
  .record [("type", .text tag.text), ("value", contents)]

/-- The tag of a record may be given as any name, the tag in a list only as text. -/
def Datum.adjacentTag? : Datum → Option Kind
  | .record fields => fields.lookup "type" >>= Kind.ofDatum?
  | .list (.text name :: _) => Datum.named? Kind.all Kind.text name
  | _ => none

def Datum.adjacent? (d : Datum) : Option (Kind × Datum) := do
  let tag ← d.adjacentTag?
  let contents ← d.part? ["type", "value"] "value"
  return (tag, contents.val)

namespace Quantity

def toDatum : Quantity → Datum
  | .number x => .adjacent .number (.ofFloat x)
  | .matrix m => .adjacent .matrix m.toDatum

def ofDatum? (d : Datum) : Option Quantity := do
  match ← d.adjacent? with
  | (.number, contents) => return .number (← contents.float?)
  | (.matrix, contents) => return .matrix (← Matrix.ofDatum? contents)
  | (.unit, _) => none

end Quantity

namespace Value

def toDatum : Value → Datum
  | .number x => .adjacent .number (.ofFloat x)
  | .matrix m => .adjacent .matrix m.toDatum
  | .measured units quantity =>
    .adjacent .unit (.record [("units", units.toDatum), ("value", quantity.toDatum)])

def measuredOfDatum? (d : Datum) : Option Value := do
  let units ← d.part? ["units", "value"] "units"
  let quantity ← d.part? ["units", "value"] "value"
  return .measured (← CompoundUnit.ofDatum? units.val) (← Quantity.ofDatum? quantity.val)

def ofDatum? (d : Datum) : Option Value := do
  match ← d.adjacent? with
  | (.number, contents) => return .number (← contents.float?)
  | (.matrix, contents) => return .matrix (← Matrix.ofDatum? contents)
  | (.unit, contents) => measuredOfDatum? contents

end Value

end QuantityCalculus
