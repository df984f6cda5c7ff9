import QuantityCalculus.Proofs.Matrix

/-!
Matrices given by their entries. A well-formed matrix is determined by its sizes and its entries,
and the operations on matrices are described entry by entry.
-/
namespace QuantityCalculus.Matrix

/-- The number at a row and a column, zero where there is none. -/
def entry (m : Matrix) (row col : Nat) : Float :=
  (m.cell? row col).getD 0.0

/-- The matrix of the given sizes with the given entries. -/
def ofEntries (rows cols : Nat) (f : Nat → Nat → Float) : Matrix :=
  ⟨rows, cols, (List.range rows).map fun row => (List.range cols).map (f row)⟩

variable {m n : Matrix} {rows cols : Nat} {f : Nat → Nat → Float}

theorem WellFormed.cell?_eq (h : m.WellFormed) {row col : Nat} (hr : row < m.rows)
    (hc : col < m.cols) : m.cell? row col = some (m.entry row col) := by
  obtain ⟨x, hx⟩ := h.exists_cell? hr hc
  rw [entry, hx, Option.getD_some]

theorem WellFormed.cells_eq (h : m.WellFormed) :
    m.cells = (List.range m.rows).map fun row => (List.range m.cols).map (m.entry row) := by
  obtain ⟨-, -, hl, hw⟩ := h
  apply List.ext_getElem
  · simp [hl]
  · intro row hrow _
    have hlength : m.cells[row].length = m.cols := hw _ (List.getElem_mem hrow)
    apply List.ext_getElem
    · simp [hlength]
    · intro col hcol _
      have hcell : m.cell? row col = some m.cells[row][col] := by
        rw [cell?, List.getElem?_eq_getElem hrow]
        exact List.getElem?_eq_getElem hcol
      simp [entry, hcell]

@[simp] theorem shape_map (m : Matrix) (g : Float → Float) : (m.map g).shape = m.shape :=
  rfl

theorem map_map (m : Matrix) (g h : Float → Float) :
    (m.map g).map h = m.map fun x => h (g x) := by
  simp [Matrix.map, Function.comp_def]

theorem zipWith?_map (m n : Matrix) (g : Float → Float) (h : Float → Float → Float) :
    m.zipWith? (n.map g) h = m.zipWith? n fun x y => h x (g y) := by
  simp [Matrix.zipWith?, Matrix.map, shape, List.zipWith_map_right]

theorem WellFormed.map_eq (h : m.WellFormed) (g : Float → Float) :
    m.map g = ofEntries m.rows m.cols fun row col => g (m.entry row col) := by
  rw [Matrix.map, h.cells_eq]
  simp [ofEntries, Function.comp_def]

theorem WellFormed.zipWith?_eq (hm : m.WellFormed) (hn : n.WellFormed) (hs : m.shape = n.shape)
    (g : Float → Float → Float) :
    m.zipWith? n g =
      some (ofEntries m.rows m.cols fun row col => g (m.entry row col) (n.entry row col)) := by
  have hr : n.rows = m.rows := congrArg Shape.rows hs.symm
  have hc : n.cols = m.cols := congrArg Shape.cols hs.symm
  rw [Matrix.zipWith?, if_pos hs, hm.cells_eq, hn.cells_eq, hr, hc]
  simp [ofEntries, List.zipWith_map]

theorem wellFormed_ofEntries (hr : 1 ≤ rows) (hc : 1 ≤ cols) (f : Nat → Nat → Float) :
    (ofEntries rows cols f).WellFormed := by
  refine ⟨hr, hc, by simp [ofEntries], ?_⟩
  intro row hrow
  obtain ⟨i, -, rfl⟩ := List.mem_map.1 hrow
  simp [ofEntries]

theorem cell?_ofEntries {row col : Nat} (hr : row < rows) (hc : col < cols) :
    (ofEntries rows cols f).cell? row col = some (f row col) := by
  simp [ofEntries, cell?, hr, hc]

theorem entry_ofEntries {row col : Nat} (hr : row < rows) (hc : col < cols) :
    (ofEntries rows cols f).entry row col = f row col := by
  rw [entry, cell?_ofEntries hr hc, Option.getD_some]

theorem tabulate?_eq {g : Nat → Nat → Option Float}
    (h : ∀ row col, row < rows → col < cols → g row col = some (f row col)) :
    tabulate? rows cols g = some (ofEntries rows cols f) := by
  have hrow (row : Nat) (hr : row < rows) :
      (List.range cols).mapM (g row) = some ((List.range cols).map (f row)) :=
    Lists.mapM_eq_map fun col hc => h row col hr (List.mem_range.1 hc)
  have hrows := Lists.mapM_eq_map fun row hr => hrow row (List.mem_range.1 hr)
  rw [tabulate?, hrows]
  rfl

end QuantityCalculus.Matrix
