import QuantityCalculus.Fault.Basic

/-!
The three products of matrices. A shape that a product does not take is a fault at the operator.
-/
namespace QuantityCalculus.Arithmetic

/-- Left to right from negative zero, which is the neutral element. -/
def floatSum (xs : List Float) : Float :=
  xs.foldl (· + ·) (-0.0)

/-- The products of the first cells of corresponding rows. -/
def headProducts? (rows others : List (List Float)) : Option (List Float) :=
  (rows.zip others).mapM fun (r, s) => do
    return (← r.head?) * (← s.head?)

def scalarProduct (site : Equation) (m n : Matrix) : Outcome Float :=
  if m.rows = n.rows then
    Outcome.expect .missingCell ((headProducts? m.cells n.cells).map floatSum)
  else Outcome.blame site (.scalarProductLengths m.rows n.rows)

/-- One component of the vector product of two columns of three cells. -/
def component? (m n : Matrix) (row : Nat) : Option Float := do
  let i := (row + 1) % 3
  let j := (row + 2) % 3
  return (← m.cell? i 0) * (← n.cell? j 0) - (← m.cell? j 0) * (← n.cell? i 0)

def vectorProduct (site : Equation) (m n : Matrix) : Outcome Matrix :=
  if m.rows = 3 ∧ n.rows = 3 then
    Outcome.expect .missingCell (Matrix.tabulate? 3 1 fun row _ => component? m n row)
  else Outcome.blame site (.vectorProductLengths m.rows n.rows)

def rowByColumn? (m n : Matrix) (row col : Nat) : Option Float := do
  let products ← (List.range m.cols).mapM fun k => do
    return (← m.cell? row k) * (← n.cell? k col)
  return floatSum products

def matrixProduct (site : Equation) (m n : Matrix) : Outcome Matrix :=
  if m.cols = n.rows then
    Outcome.expect .missingCell (Matrix.tabulate? m.rows n.cols (rowByColumn? m n))
  else Outcome.blame site (.matrixProductShapes m.shape n.shape)

end QuantityCalculus.Arithmetic
