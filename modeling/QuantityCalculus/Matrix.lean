/-!
Matrices of doubles, row by row. The constructor `ofRows?` accepts non-empty rectangular grids
only; a matrix that was read from a document carries the sizes written there.
-/
namespace QuantityCalculus

structure Shape where
  rows : Nat
  cols : Nat
  deriving DecidableEq, Repr

def Shape.text (s : Shape) : String :=
  toString s.rows ++ "x" ++ toString s.cols

structure Matrix where
  rows : Nat
  cols : Nat
  cells : List (List Float)
  deriving DecidableEq, Repr

namespace Matrix

/-- The cells agree with the sizes, and neither size is zero. -/
def WellFormed (m : Matrix) : Prop :=
  1 ≤ m.rows ∧ 1 ≤ m.cols ∧ m.cells.length = m.rows ∧ ∀ row ∈ m.cells, row.length = m.cols

instance (m : Matrix) : Decidable m.WellFormed :=
  inferInstanceAs (Decidable (_ ∧ _ ∧ _ ∧ _))

/-- The matrix with the given rows, unless they are empty or of different lengths. -/
def ofRows? (cells : List (List Float)) : Option Matrix :=
  match cells with
  | [] => none
  | row :: rest =>
    if row.length ≠ 0 ∧ rest.all fun other => other.length = row.length then
      some ⟨cells.length, row.length, cells⟩
    else none

theorem wellFormed_of_ofRows? {cells : List (List Float)} {m : Matrix} (h : ofRows? cells = some m) :
    m.WellFormed ∧ m.cells = cells := by
  unfold ofRows? at h
  split at h
  · simp at h
  · rename_i row rest
    split at h
    · rename_i hr
      cases h
      refine ⟨⟨?_, ?_, rfl, ?_⟩, rfl⟩
      · simp
      · exact Nat.pos_of_ne_zero hr.1
      · intro other ho
        rcases List.mem_cons.1 ho with rfl | ho
        · rfl
        · simpa using List.all_eq_true.1 hr.2 other ho
    · simp at h

def ofColumn? (values : List Float) : Option Matrix :=
  ofRows? (values.map fun x => [x])

def shape (m : Matrix) : Shape :=
  ⟨m.rows, m.cols⟩

def cell? (m : Matrix) (row col : Nat) : Option Float := do
  (← m.cells[row]?)[col]?

def isColumn (m : Matrix) : Bool :=
  m.cols = 1

def containsZero (m : Matrix) : Bool :=
  m.cells.any fun row => row.any fun x => x == 0.0

def map (m : Matrix) (f : Float → Float) : Matrix :=
  ⟨m.rows, m.cols, m.cells.map fun row => row.map f⟩

/-- Cell by cell, for matrices of one shape only. -/
def zipWith? (m n : Matrix) (f : Float → Float → Float) : Option Matrix :=
  if m.shape = n.shape then
    some ⟨m.rows, m.cols, List.zipWith (fun r s => List.zipWith f r s) m.cells n.cells⟩
  else none

/-- The matrix whose cells `f` gives by row and column, if it gives all of them. -/
def tabulate? (rows cols : Nat) (f : Nat → Nat → Option Float) : Option Matrix := do
  let cells ← (List.range rows).mapM fun row => (List.range cols).mapM (f row)
  return ⟨rows, cols, cells⟩

def rowsEqual : List Float → List Float → Bool
  | [], [] => true
  | x :: xs, y :: ys => x == y && rowsEqual xs ys
  | _, _ => false

def cellsEqual : List (List Float) → List (List Float) → Bool
  | [], [] => true
  | r :: rs, s :: ss => rowsEqual r s && cellsEqual rs ss
  | _, _ => false

/-- Equality of floating-point numbers cell by cell, under which the zeros agree and NaN differs. -/
def equal (m n : Matrix) : Bool :=
  m.rows == n.rows && m.cols == n.cols && cellsEqual m.cells n.cells

end Matrix

end QuantityCalculus
