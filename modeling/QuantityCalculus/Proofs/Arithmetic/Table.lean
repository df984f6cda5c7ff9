import QuantityCalculus.Proofs.Arithmetic.Grounds
import QuantityCalculus.Proofs.Matrix.Entries
import QuantityCalculus.Proofs.Outcome
import QuantityCalculus.Proofs.Value.WellFormed

/-!
The operators as a table. A row says what an operator makes of the units of its operands, and what
it makes of their quantities for each combination of numbers and matrices, entry by entry.
-/
namespace QuantityCalculus.Arithmetic

/-- What an operator does, by the kinds of its operands; a cause stands where it has no result. -/
structure Row where
  unit : Value → Value → Except Cause CompoundUnit
  numbers : Float → Float → Except Cause Quantity
  numberMatrix : Float → Matrix → Except Cause Quantity
  matrixNumber : Matrix → Float → Except Cause Quantity
  matrices : Matrix → Matrix → Except Cause Quantity

namespace Row

def quantity (row : Row) : Quantity → Quantity → Except Cause Quantity
  | .number x, .number y => row.numbers x y
  | .number x, .matrix n => row.numberMatrix x n
  | .matrix m, .number y => row.matrixNumber m y
  | .matrix m, .matrix n => row.matrices m n

/-- The units come first, whatever is wrong with the quantities. -/
def value (row : Row) (a b : Value) : Except Cause Value := do
  let u ← row.unit a b
  let q ← row.quantity a.quantity b.quantity
  return .ofParts u q

/-- A unit in the range of exponents, or else the blame is on the unit of the left operand. -/
def inRange (a : Value) : Option CompoundUnit → Except Cause CompoundUnit
  | some u => .ok u
  | none => .error (.exponentRange a.units)

/-- Sums want one unit and, of matrices, one shape. `right` is applied to the right operand. -/
def sum (right : Float → Float) : Row where
  unit a b :=
    if a.units.sameUnit b.units then .ok a.units else .error (.unlikeUnits a.units b.units)
  numbers x y := .ok (.number (x + right y))
  numberMatrix x n :=
    .ok (.matrix (.ofEntries n.rows n.cols fun row col => right (n.entry row col) + x))
  matrixNumber m y :=
    .ok (.matrix (.ofEntries m.rows m.cols fun row col => m.entry row col + right y))
  matrices m n :=
    if m.shape = n.shape then
      .ok (.matrix (.ofEntries m.rows m.cols fun row col =>
        m.entry row col + right (n.entry row col)))
    else .error (.unlikeShapes m.shape n.shape)

/-- The general product of matrices, row by column. -/
def rowsByColumns (m n : Matrix) : Except Cause Quantity :=
  if m.cols = n.rows then
    .ok (.matrix (.ofEntries m.rows n.cols fun row col =>
      floatSum ((List.range m.cols).map fun k => m.entry row k * n.entry k col)))
  else .error (.matrixProductShapes m.shape n.shape)

/-- Products multiply the units. Two columns have a product of their own. -/
def product (columns : Matrix → Matrix → Except Cause Quantity) : Row where
  unit a b := inRange a (a.units.multiply? b.units)
  numbers x y := .ok (.number (x * y))
  numberMatrix x n := .ok (.matrix (.ofEntries n.rows n.cols fun row col => n.entry row col * x))
  matrixNumber m y := .ok (.matrix (.ofEntries m.rows m.cols fun row col => m.entry row col * y))
  matrices m n := if m.cols = 1 ∧ n.cols = 1 then columns m n else rowsByColumns m n

def scalarColumns (m n : Matrix) : Except Cause Quantity :=
  if m.rows = n.rows then
    .ok (.number (floatSum ((List.range m.rows).map fun row => m.entry row 0 * n.entry row 0)))
  else .error (.scalarProductLengths m.rows n.rows)

def vectorColumns (m n : Matrix) : Except Cause Quantity :=
  if m.rows = 3 ∧ n.rows = 3 then
    .ok (.matrix ⟨3, 1,
      [[m.entry 1 0 * n.entry 2 0 - m.entry 2 0 * n.entry 1 0],
        [m.entry 2 0 * n.entry 0 0 - m.entry 0 0 * n.entry 2 0],
        [m.entry 0 0 * n.entry 1 0 - m.entry 1 0 * n.entry 0 0]]⟩)
  else .error (.vectorProductLengths m.rows n.rows)

/-- Quotients divide the units. A divisor is a number other than zero, or under a number a matrix
without a zero entry. -/
def quotient : Row where
  unit a b := inRange a (a.units.divide? b.units)
  numbers x y := if y == 0.0 then .error .zeroDivisor else .ok (.number (x / y))
  numberMatrix x n :=
    if ∃ row < n.rows, ∃ col < n.cols, (n.entry row col == 0.0) = true then .error .zeroDivisor
    else .ok (.matrix (.ofEntries n.rows n.cols fun row col => x / n.entry row col))
  matrixNumber m y :=
    if y == 0.0 then .error .zeroDivisor
    else .ok (.matrix (.ofEntries m.rows m.cols fun row col => m.entry row col / y))
  matrices _ _ := .error .matrixDivisor

/-- The exponent of a power is a bare number, so that there is no power with a matrix above. -/
def power : Row where
  unit a
    | .number y => inRange a (a.units.power? y)
    | b => .error (.exponentKind b.kind)
  numbers x y := .ok (.number (x.pow y))
  numberMatrix _ _ := .error (.operandKinds .power .number .matrix)
  matrixNumber m y :=
    .ok (.matrix (.ofEntries m.rows m.cols fun row col => (m.entry row col).pow y))
  matrices _ _ := .error (.operandKinds .power .matrix .matrix)

end Row

/-- The cause is blamed on the site. -/
def located {α : Type} (site : Equation) : Except Cause α → Outcome α
  | .ok a => .ok a
  | .error cause => Outcome.blame site cause

variable {site : Equation} {m n : Matrix} {p q : Quantity} {a b : Value}

section Products

variable (hm : m.WellFormed) (hn : n.WellFormed)

include hm hn

theorem headProducts?_eq (h : m.rows = n.rows) : headProducts? m.cells n.cells =
    some ((List.range m.rows).map fun row => m.entry row 0 * n.entry row 0) := by
  have hmc : m.cols ≠ 0 := Nat.ne_of_gt hm.2.1
  have hnc : n.cols ≠ 0 := Nat.ne_of_gt hn.2.1
  rw [headProducts?, hm.cells_eq, hn.cells_eq, ← h, List.zip_map', List.mapM_map]
  apply Lists.mapM_eq_map
  intro row _
  simp [List.head?_range, hmc, hnc]

theorem scalarProduct_eq (site : Equation) :
    Quantity.number <$> scalarProduct site m n = located site (Row.scalarColumns m n) := by
  unfold scalarProduct Row.scalarColumns
  split
  · rename_i hr
    rw [headProducts?_eq hm hn hr]
    rfl
  · rfl

theorem component?_eq (hr : m.rows = 3) (ht : n.rows = 3) (row : Nat) :
    component? m n row = some (m.entry ((row + 1) % 3) 0 * n.entry ((row + 2) % 3) 0 -
      m.entry ((row + 2) % 3) 0 * n.entry ((row + 1) % 3) 0) := by
  have hlt (k : Nat) : k % 3 < 3 := Nat.mod_lt k (by decide)
  have hmcell (k : Nat) : m.cell? (k % 3) 0 = some (m.entry (k % 3) 0) :=
    hm.cell?_eq (hr ▸ hlt k) hm.2.1
  have hncell (k : Nat) : n.cell? (k % 3) 0 = some (n.entry (k % 3) 0) :=
    hn.cell?_eq (ht ▸ hlt k) hn.2.1
  simp [component?, hmcell, hncell]

theorem vectorProduct_eq (site : Equation) :
    Quantity.matrix <$> vectorProduct site m n = located site (Row.vectorColumns m n) := by
  unfold vectorProduct Row.vectorColumns
  split
  · rename_i hr
    rw [Matrix.tabulate?_eq fun row _ _ _ => component?_eq hm hn hr.1 hr.2 row]
    rfl
  · rfl

theorem rowByColumn?_eq (h : m.cols = n.rows) {row col : Nat} (hr : row < m.rows)
    (hc : col < n.cols) : rowByColumn? m n row col =
      some (floatSum ((List.range m.cols).map fun k => m.entry row k * n.entry k col)) := by
  have hproducts : (List.range m.cols).mapM (fun k => do
      return (← m.cell? row k) * (← n.cell? k col)) =
        some ((List.range m.cols).map fun k => m.entry row k * n.entry k col) := by
    apply Lists.mapM_eq_map
    intro k hk
    have hk : k < m.cols := List.mem_range.1 hk
    simp [hm.cell?_eq hr hk, hn.cell?_eq (h ▸ hk) hc]
  rw [rowByColumn?, hproducts]
  rfl

theorem matrixProduct_eq (site : Equation) :
    Quantity.matrix <$> matrixProduct site m n = located site (Row.rowsByColumns m n) := by
  unfold matrixProduct Row.rowsByColumns
  split
  · rename_i hk
    rw [Matrix.tabulate?_eq fun _ _ hr hc => rowByColumn?_eq hm hn hk hr hc]
    rfl
  · rfl

end Products

/-- The entry of the table for two columns. -/
def VectorRule.columns : VectorRule → Matrix → Matrix → Except Cause Quantity
  | .ambiguous => fun _ _ => .error .ambiguousVectors
  | .scalar => Row.scalarColumns
  | .vector => Row.vectorColumns

theorem columnProduct_eq (site : Equation) (rule : VectorRule) (hm : m.WellFormed)
    (hn : n.WellFormed) : columnProduct site rule m n = located site (rule.columns m n) := by
  cases rule with
  | ambiguous => rfl
  | scalar => exact scalarProduct_eq hm hn site
  | vector => exact vectorProduct_eq hm hn site

section Quantities

/-- The quantity with its numbers changed. -/
def applied (right : Float → Float) : Quantity → Quantity
  | .number y => .number (right y)
  | .matrix n => .matrix (n.map right)

theorem applied_id (q : Quantity) : applied id q = q := by
  cases q with
  | number y => rfl
  | matrix n => simp [applied, Matrix.map]

variable (hp : p.WellFormed) (hq : q.WellFormed)

include hp hq

theorem sum_eq (site : Equation) (right : Float → Float) :
    sum site p (applied right q) = located site ((Row.sum right).quantity p q) := by
  cases p with
  | number x =>
    cases q with
    | number y => rfl
    | matrix n =>
      have hn : n.WellFormed := hq
      rw [applied, sum, Matrix.map_map, hn.map_eq]
      rfl
  | matrix m =>
    have hm : m.WellFormed := hp
    cases q with
    | number y =>
      rw [applied, sum, hm.map_eq]
      rfl
    | matrix n =>
      have hn : n.WellFormed := hq
      simp only [applied, sum, Row.quantity, Row.sum, Matrix.shape_map, Matrix.zipWith?_map]
      split
      · rename_i hs
        rw [hm.zipWith?_eq hn hs]
        rfl
      · rfl

theorem product_eq (site : Equation) (rule : VectorRule) :
    product site rule p q = located site ((Row.product rule.columns).quantity p q) := by
  cases p with
  | number x =>
    cases q with
    | number y => rfl
    | matrix n =>
      have hn : n.WellFormed := hq
      rw [product, hn.map_eq]
      rfl
  | matrix m =>
    have hm : m.WellFormed := hp
    cases q with
    | number y =>
      rw [product, hm.map_eq]
      rfl
    | matrix n =>
      have hcolumns : (m.isColumn && n.isColumn) = true ↔ m.cols = 1 ∧ n.cols = 1 := by
        simp [Matrix.isColumn]
      simp only [product, Row.quantity, Row.product, hcolumns]
      split
      · exact columnProduct_eq site rule hm hq
      · exact matrixProduct_eq hm hq site

end Quantities

theorem join_eq {operator : BinaryOperator} {row : Row} {c : Value}
    {units : CompoundUnit → CompoundUnit → Outcome CompoundUnit}
    {quantities : Quantity → Quantity → Outcome (Option Quantity)}
    (hu : units a.units c.units = located site (row.unit a b))
    (hq : quantities a.quantity c.quantity =
      some <$> located site (row.quantity a.quantity b.quantity)) :
    join operator site units quantities a c = located site (row.value a b) := by
  rw [join, hu, hq, Row.value]
  cases row.unit a b with
  | error cause => rfl
  | ok u =>
    cases row.quantity a.quantity b.quantity with
    | error cause => rfl
    | ok q => rfl

theorem unitInRange_eq (site : Equation) (a : Value) (x : Option CompoundUnit) :
    unitInRange site a.units x = located site (Row.inRange a x) := by
  cases x with
  | none => rfl
  | some u => rfl

section Operators

variable (ha : a.WellFormed) (hb : b.WellFormed)

include ha hb

/-- Both addition and subtraction, whose right operand is changed beforehand. -/
theorem plus_eq (site : Equation) (right : Float → Float) {c : Value} (hu : c.units = b.units)
    (hq : c.quantity = applied right b.quantity) :
    plus site a c = located site ((Row.sum right).value a b) := by
  have hunit : commonUnit site a.units c.units = located site ((Row.sum right).unit a b) := by
    simp only [commonUnit, Row.sum, hu]
    split
    · rfl
    · rfl
  have hquantity := sum_eq ha.quantity hb.quantity site right
  rw [← hq] at hquantity
  exact join_eq hunit (congrArg (some <$> ·) hquantity)

theorem multiply_eq (site : Equation) (rule : VectorRule) :
    multiply site rule a b = located site ((Row.product rule.columns).value a b) := by
  have hquantity := product_eq ha.quantity hb.quantity site rule
  exact join_eq (unitInRange_eq site a _) (congrArg (some <$> ·) hquantity)

end Operators

end QuantityCalculus.Arithmetic
