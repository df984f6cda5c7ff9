import QuantityCalculus.Proofs.Arithmetic.Table

/-!
The products of matrices under the three rules for vectors. The rule makes a difference to two
columns only, and the scalar product of two columns is the matrix product of the first one, laid
down as a row, by the second.
-/
namespace QuantityCalculus

namespace Matrix

variable {m : Matrix}

/-- A column laid down as a row. -/
def asRow (m : Matrix) : Matrix :=
  ⟨1, m.rows, [m.cells.flatten]⟩

theorem WellFormed.asRow_eq (h : m.WellFormed) (hc : m.cols = 1) :
    m.asRow = ofEntries 1 m.rows fun _ col => m.entry col 0 := by
  have hcells : m.cells = (List.range m.rows).map fun row => [m.entry row 0] := by
    rw [h.cells_eq, hc]
    simp
  rw [asRow, hcells, ← List.flatMap_def, ← List.map_eq_flatMap]
  rfl

end Matrix

namespace Arithmetic

variable {site : Equation} {m n p q : Matrix} {a b : Value} {w : CompoundUnit}

/-- The products are added from left to right as they are formed. -/
theorem floatSum_map (f : Nat → Float) (ks : List Nat) :
    floatSum (ks.map f) = ks.foldl (fun sum k => sum + f k) (-0.0) :=
  List.foldl_map

theorem scalarProduct_of_rows (hm : m.WellFormed) (hn : n.WellFormed) (h : m.rows = n.rows)
    (site : Equation) : scalarProduct site m n =
      .ok ((List.range m.rows).foldl (fun sum k => sum + m.entry k 0 * n.entry k 0) (-0.0)) := by
  have hproduct := scalarProduct_eq hm hn site
  rw [Row.scalarColumns, if_pos h, floatSum_map] at hproduct
  obtain ⟨x, hx, hvalue⟩ := Outcome.map_eq_ok.1 hproduct
  rw [hx, Quantity.number.inj hvalue]

theorem matrixProduct_of_shapes (hm : m.WellFormed) (hn : n.WellFormed) (h : m.cols = n.rows)
    (site : Equation) : matrixProduct site m n =
      .ok (.ofEntries m.rows n.cols fun row col =>
        (List.range m.cols).foldl (fun sum k => sum + m.entry row k * n.entry k col) (-0.0)) := by
  have hproduct := matrixProduct_eq hm hn site
  simp only [Row.rowsByColumns, if_pos h, floatSum_map] at hproduct
  obtain ⟨r, hr, hvalue⟩ := Outcome.map_eq_ok.1 hproduct
  rw [hr, Quantity.matrix.inj hvalue]

/-- The sums run over the same products in the same order, so that they are rounded alike. -/
theorem scalarProduct_eq_matrixProduct (hm : m.WellFormed) (hn : n.WellFormed) (hmc : m.cols = 1)
    (hnc : n.cols = 1) (h : m.rows = n.rows) (site : Equation) :
    let x := (List.range m.rows).foldl (fun sum k => sum + m.entry k 0 * n.entry k 0) (-0.0)
    scalarProduct site m n = .ok x ∧ matrixProduct site m.asRow n = .ok ⟨1, 1, [[x]]⟩ := by
  intro x
  have hrow := hm.asRow_eq hmc
  have hwell : m.asRow.WellFormed := hrow ▸ Matrix.wellFormed_ofEntries (Nat.le_refl 1) hm.1 _
  have hsum : (List.range m.rows).foldl
      (fun sum k => sum + m.asRow.entry 0 k * n.entry k 0) (-0.0) = x := by
    apply List.foldl_ext
    intro sum k hk
    rw [hrow, Matrix.entry_ofEntries Nat.zero_lt_one (List.mem_range.1 hk)]
  refine ⟨scalarProduct_of_rows hm hn h site, ?_⟩
  rw [matrixProduct_of_shapes hwell hn h, hnc, ← hsum]
  rfl

theorem rowsByColumns_of_shapes (hm : m.WellFormed) (hn : n.WellFormed) (h : m.cols = n.rows) :
    ∃ r : Matrix, r.WellFormed ∧ r.shape = ⟨m.rows, n.cols⟩ ∧
      (∀ row col, row < m.rows → col < n.cols → r.cell? row col =
        some ((List.range m.cols).foldl
          (fun sum k => sum + m.entry row k * n.entry k col) (-0.0))) ∧
      Row.rowsByColumns m n = .ok (.matrix r) := by
  refine ⟨_, Matrix.wellFormed_ofEntries hm.1 hn.2.1 _, rfl, ?_, if_pos h⟩
  intro row col hrow hcol
  rw [← floatSum_map]
  exact Matrix.cell?_ofEntries hrow hcol

theorem vectorColumns_of_lengths (h : m.rows = 3 ∧ n.rows = 3) :
    ∃ r : Matrix, r.WellFormed ∧ r.shape = ⟨3, 1⟩ ∧ Row.vectorColumns m n = .ok (.matrix r) := by
  refine ⟨_, ?_, ?_, if_pos h⟩
  · exact ⟨by simp, by simp, rfl, by simp⟩
  · rfl

section Multiply

variable (ha : a.WellFormed) (hb : b.WellFormed) (hp : a.quantity = .matrix p)
  (hq : b.quantity = .matrix q) (hw : a.units.multiply? b.units = some w)

include ha hb hp hq hw

theorem multiply_matrices (site : Equation) (rule : VectorRule) :
    multiply site rule a b = Value.ofParts w <$> located site
      (if p.cols = 1 ∧ q.cols = 1 then rule.columns p q else Row.rowsByColumns p q) := by
  rw [multiply_eq ha hb, Row.value]
  simp only [Row.product, hw, Row.inRange, hp, hq, Row.quantity]
  cases (if p.cols = 1 ∧ q.cols = 1 then rule.columns p q else Row.rowsByColumns p q) with
  | error cause => rfl
  | ok r => rfl

/-- The three rules agree on matrices that are not both columns: rows by columns where the inner
sizes agree, each cell a sum from left to right, and one fault where they do not. On two columns the
rule decides, by the lengths alone, and the scalar product is the one cell of the matrix product with
the first column as a row. -/
theorem matrix_products_agree (site : Equation) :
    (¬ (p.cols = 1 ∧ q.cols = 1) →
      (p.cols = q.rows → ∃ r : Matrix, r.WellFormed ∧ r.shape = ⟨p.rows, q.cols⟩ ∧
        (∀ row col, row < p.rows → col < q.cols → r.cell? row col =
          some ((List.range p.cols).foldl
            (fun sum k => sum + p.entry row k * q.entry k col) (-0.0))) ∧
        ∀ rule, multiply site rule a b = .ok (.ofParts w (.matrix r))) ∧
      (p.cols ≠ q.rows → ∀ rule,
        multiply site rule a b = Outcome.blame site (.matrixProductShapes p.shape q.shape))) ∧
    (p.cols = 1 ∧ q.cols = 1 →
      multiply site .ambiguous a b = Outcome.blame site .ambiguousVectors ∧
      (p.rows = 3 ∧ q.rows = 3 → ∃ r : Matrix, r.WellFormed ∧ r.shape = ⟨3, 1⟩ ∧
        multiply site .vector a b = .ok (.ofParts w (.matrix r))) ∧
      (¬ (p.rows = 3 ∧ q.rows = 3) →
        multiply site .vector a b = Outcome.blame site (.vectorProductLengths p.rows q.rows)) ∧
      (p.rows = q.rows →
        let x := (List.range p.rows).foldl (fun sum k => sum + p.entry k 0 * q.entry k 0) (-0.0)
        multiply site .scalar a b = .ok (.ofParts w (.number x)) ∧
        scalarProduct site p q = .ok x ∧ matrixProduct site p.asRow q = .ok ⟨1, 1, [[x]]⟩) ∧
      (p.rows ≠ q.rows →
        multiply site .scalar a b = Outcome.blame site (.scalarProductLengths p.rows q.rows))) := by
  have hpwell : p.WellFormed := by
    have h := ha.quantity
    rwa [hp] at h
  have hqwell : q.WellFormed := by
    have h := hb.quantity
    rwa [hq] at h
  have hmultiply := multiply_matrices ha hb hp hq hw site
  constructor
  · intro hcolumns
    simp only [if_neg hcolumns] at hmultiply
    constructor
    · intro hinner
      obtain ⟨r, hr, hshape, hcells, hvalue⟩ := rowsByColumns_of_shapes hpwell hqwell hinner
      refine ⟨r, hr, hshape, hcells, ?_⟩
      intro rule
      rw [hmultiply, hvalue]
      rfl
    · intro hinner rule
      rw [hmultiply, Row.rowsByColumns, if_neg hinner]
      rfl
  · intro hcolumns
    simp only [if_pos hcolumns] at hmultiply
    refine ⟨hmultiply .ambiguous, ?_, ?_, ?_, ?_⟩
    · intro hlengths
      obtain ⟨r, hr, hshape, hvalue⟩ := vectorColumns_of_lengths hlengths
      refine ⟨r, hr, hshape, ?_⟩
      rw [hmultiply, VectorRule.columns, hvalue]
      rfl
    · intro hlengths
      rw [hmultiply, VectorRule.columns, Row.vectorColumns, if_neg hlengths]
      rfl
    · intro hlengths x
      obtain ⟨hx, hproduct⟩ :=
        scalarProduct_eq_matrixProduct hpwell hqwell hcolumns.1 hcolumns.2 hlengths site
      have hcolumn := scalarProduct_eq hpwell hqwell site
      rw [hx] at hcolumn
      refine ⟨?_, hx, hproduct⟩
      rw [hmultiply, VectorRule.columns, ← hcolumn]
      rfl
    · intro hlengths
      rw [hmultiply, VectorRule.columns, Row.scalarColumns, if_neg hlengths]
      rfl

end Multiply

/-- Four lengths by a column, each cell a sum of two products; three cells by two; and work as the
scalar product of a force and a way, which have no vector product in the plane. -/
theorem matrix_products_agree_sample :
    (∃ r : Matrix, r.shape = ⟨2, 1⟩ ∧ r.cell? 0 0 = some 17.0 ∧ r.cell? 1 0 = some 39.0 ∧ ∀ rule,
      multiply .missingOperand rule
        (.measured (.base "m") (.matrix ⟨2, 2, [[1.0, 2.0], [3.0, 4.0]]⟩))
        (.matrix ⟨2, 1, [[5.0], [6.0]]⟩) = .ok (.measured (.base "m") (.matrix r))) ∧
    (∀ rule, multiply .missingOperand rule (.matrix ⟨1, 3, [[1.0, 2.0, 3.0]]⟩)
      (.matrix ⟨2, 1, [[1.0], [2.0]]⟩) =
        Outcome.blame .missingOperand (.matrixProductShapes ⟨1, 3⟩ ⟨2, 1⟩)) ∧
    let force : Matrix := ⟨2, 1, [[1.0], [2.0]]⟩
    let way : Matrix := ⟨2, 1, [[3.0], [4.0]]⟩
    let multiplied (rule : VectorRule) :=
      multiply .missingOperand rule (.measured (.base "N") (.matrix force))
        (.measured (.base "m") (.matrix way))
    multiplied .ambiguous = Outcome.blame .missingOperand .ambiguousVectors ∧
    multiplied .vector = Outcome.blame .missingOperand (.vectorProductLengths 2 2) ∧
    multiplied .scalar = .ok (.measured (.ofPowers [("N", 1), ("m", 1)]) (.number 11.0)) ∧
      scalarProduct .missingOperand force way = .ok 11.0 ∧
      matrixProduct .missingOperand force.asRow way = .ok ⟨1, 1, [[11.0]]⟩ := by
  refine ⟨?_, ?_, ?_⟩
  · have hagree := matrix_products_agree
      (a := .measured (.base "m") (.matrix ⟨2, 2, [[1.0, 2.0], [3.0, 4.0]]⟩))
      (b := .matrix ⟨2, 1, [[5.0], [6.0]]⟩) (w := .base "m") (by decide) (by decide) rfl rfl
      (by decide) .missingOperand
    obtain ⟨r, -, hshape, hcell, hmultiply⟩ := (hagree.1 (by decide)).1 rfl
    exact ⟨r, hshape, hcell 0 0 (by decide) (by decide), hcell 1 0 (by decide) (by decide),
      hmultiply⟩
  · have hagree := matrix_products_agree (a := .matrix ⟨1, 3, [[1.0, 2.0, 3.0]]⟩)
      (b := .matrix ⟨2, 1, [[1.0], [2.0]]⟩) (w := .dimensionless) (by decide) (by decide) rfl rfl
      rfl .missingOperand
    exact (hagree.1 (by decide)).2 (by decide)
  · have hagree := matrix_products_agree
      (a := .measured (.base "N") (.matrix ⟨2, 1, [[1.0], [2.0]]⟩))
      (b := .measured (.base "m") (.matrix ⟨2, 1, [[3.0], [4.0]]⟩))
      (w := .ofPowers [("N", 1), ("m", 1)]) (by decide) (by decide) rfl rfl (by decide)
      .missingOperand
    obtain ⟨hambiguous, -, hvector, hscalar, -⟩ := hagree.2 (by decide)
    exact ⟨hambiguous, hvector (by decide), hscalar rfl⟩

end Arithmetic

end QuantityCalculus
