import QuantityCalculus.Proofs.Evaluation.Invariance

/-!
Matrix literals. The cells are worked off row by row, each against the unit of the first one, and
the first cell that is refused stops the others. The shape of the grid counts only when there is a
number in every cell.
-/
namespace QuantityCalculus.Scope

/-- The unit that is expected of cells: that of the first one, if it has a value. -/
def expectedUnit (s : Scope) (cells : List Equation) : CompoundUnit :=
  MatrixLiteral.firstUnit (cells.map s.evaluate)

/-- The cell holds the number, in the unit that is expected of it. -/
def HoldsNumber (s : Scope) (unit : CompoundUnit) (cell : Equation) (x : Float) : Prop :=
  ∃ v, s.evaluate cell = .ok v ∧ v.quantity = .number x ∧ unit.sameUnit v.units = true

/-- The ways for a cell to stop the literal, each only after the ones above it are ruled out. -/
inductive CellStops (s : Scope) (unit : CompoundUnit) (cell : Equation) : Stop → Prop where
  | evaluation {stop : Stop} (h : s.evaluate cell = .error stop) : CellStops s unit cell stop
  | units {v : Value} (hv : s.evaluate cell = .ok v) (hu : unit.sameUnit v.units = false) :
      CellStops s unit cell (.fault ⟨.cellUnits unit v.units, cell⟩)
  | nested {v : Value} (hv : s.evaluate cell = .ok v) (hu : unit.sameUnit v.units = true)
      (hk : v.quantity.kind = .matrix) : CellStops s unit cell (.fault ⟨.nestedMatrix, cell⟩)

variable {s : Scope} {rows : List (List Equation)} {cells : List Equation} {cell : Equation}
  {unit : CompoundUnit} {x : Float} {v : Value} {stop : Stop}

theorem expectedUnit_cons (hv : s.evaluate cell = .ok v) (rest : List Equation) :
    s.expectedUnit (cell :: rest) = v.units := by
  rw [expectedUnit, List.map_cons, hv]
  rfl

theorem number_eq_ok :
    MatrixLiteral.number unit s.values (s.argument cell) = .ok x ↔ s.HoldsNumber unit cell x := by
  rw [MatrixLiteral.number, Outcome.map_eq_ok]
  constructor
  · rintro ⟨⟨u, y⟩, hc, rfl⟩
    obtain ⟨v, hv, hq, rfl, hu⟩ := MatrixLiteral.cell_eq_ok.1 hc
    exact ⟨v, by simpa using hv, hq, hu⟩
  · rintro ⟨v, hv, hq, hu⟩
    exact ⟨(unit, x), MatrixLiteral.cell_eq_ok.2 ⟨v, by simpa using hv, hq, rfl, hu⟩, rfl⟩

theorem number_eq_error : MatrixLiteral.number unit s.values (s.argument cell) = .error stop ↔
    s.CellStops unit cell stop := by
  rw [MatrixLiteral.number, Outcome.map_eq_error, MatrixLiteral.cell_eq_error, value_argument]
  constructor
  · rintro (h | ⟨v, hv, ⟨hu, rfl⟩ | ⟨hu, hk, rfl⟩⟩)
    · exact .evaluation h
    · exact .units hv hu
    · exact .nested hv hu hk
  · intro h
    cases h with
    | evaluation h => exact .inl h
    | units hv hu => exact .inr ⟨_, hv, .inl ⟨hu, rfl⟩⟩
    | nested hv hu hk => exact .inr ⟨_, hv, .inr ⟨hu, hk, rfl⟩⟩

theorem evaluateNode_matrix (s : Scope) (rows : List (List Equation)) :
    s.evaluateNode (.matrix rows) =
      (let unit := s.expectedUnit rows.flatten
      do
        let xss ← rows.mapM
          (List.mapM fun cell => MatrixLiteral.number unit s.values (s.argument cell))
        match Matrix.ofRows? xss with
        | some m => return .ofParts unit (.matrix m)
        | none => Outcome.blame (.matrix rows) .malformedMatrix) := by
  have hcells : (rows.map fun row => row.map s.argument).flatten.map
      (fun a => a.value s.values) = rows.flatten.map s.evaluate := by
    simp [← List.map_flatten, Function.comp_def]
  rw [evaluateNode, MatrixLiteral.value_eq_bind, hcells]
  simp only [List.mapM_map, Function.comp_def]
  rfl

theorem evaluateNode_matrix_eq_ok : s.evaluateNode (.matrix rows) = .ok v ↔ ∃ xss m,
    List.Forall₂ (List.Forall₂ (s.HoldsNumber (s.expectedUnit rows.flatten))) rows xss ∧
      Matrix.ofRows? xss = some m ∧
      v = .ofParts (s.expectedUnit rows.flatten) (.matrix m) := by
  rw [evaluateNode_matrix, Outcome.bind_eq_ok]
  refine exists_congr fun xss => ?_
  simp only [Outcome.mapM_eq_ok, number_eq_ok, exists_and_left]
  refine and_congr_right fun _ => ?_
  cases Matrix.ofRows? xss with
  | none => simp
  | some m =>
    simp only [Outcome.pure_eq_ok, Option.some.injEq, exists_eq_left']
    exact eq_comm

/-- The first cell that is refused stops the literal; the shape of the grid does only when none
is. -/
theorem evaluateNode_matrix_eq_error :
    s.evaluateNode (.matrix rows) = .error stop ↔
      (∃ before cell after, rows.flatten = before ++ cell :: after ∧
        (∀ c ∈ before, ∃ x, s.HoldsNumber (s.expectedUnit rows.flatten) c x) ∧
        s.CellStops (s.expectedUnit rows.flatten) cell stop) ∨
      (∀ c ∈ rows.flatten, ∃ x, s.HoldsNumber (s.expectedUnit rows.flatten) c x) ∧
        Matrix.Misshapen rows ∧ stop = .fault ⟨.malformedMatrix, .matrix rows⟩ := by
  rw [evaluateNode_matrix, Outcome.bind_eq_error]
  refine or_congr ?_ ?_
  · rw [← Outcome.map_eq_error (f := List.flatten), ← Outcome.mapM_flatten]
    simp only [Outcome.mapM_eq_error, number_eq_ok, number_eq_error]
  · simp only [Outcome.mapM_eq_ok, number_eq_ok, List.forall_mem_flatten,
      ← Lists.exists_forall₂_iff, ← exists_and_right]
    refine exists_congr fun xss => and_congr_right fun hall => ?_
    rw [Matrix.misshapen_iff_of_forall₂ hall, ← Matrix.ofRows?_eq_none_iff]
    cases Matrix.ofRows? xss <;> simp

/-- Cells that hold numbers in one unit hold them in the unit that is expected. -/
theorem holdsNumber_of_like
    (scalars : ∀ c ∈ cells, ∃ v x, s.evaluate c = .ok v ∧ v.quantity = .number x)
    (like : ∀ c ∈ cells, ∀ d ∈ cells, ∀ v w, s.evaluate c = .ok v → s.evaluate d = .ok w →
      v.units.sameUnit w.units = true) :
    ∀ c ∈ cells, ∃ x, s.HoldsNumber (s.expectedUnit cells) c x := by
  intro c hc
  obtain ⟨v, x, hv, hx⟩ := scalars c hc
  refine ⟨x, v, hv, hx, ?_⟩
  cases cells with
  | nil => cases hc
  | cons first rest =>
    obtain ⟨w, -, hw, -⟩ := scalars first List.mem_cons_self
    rw [expectedUnit_cons hw]
    exact like first List.mem_cons_self c hc w v hw hv

theorem like_of_holdsNumber
    (holds : ∀ c ∈ cells, ∃ x, s.HoldsNumber (s.expectedUnit cells) c x)
    (proper : ∀ c ∈ cells, ∀ v, s.evaluate c = .ok v → v.units.Proper) :
    ∀ c ∈ cells, ∀ d ∈ cells, ∀ v w, s.evaluate c = .ok v → s.evaluate d = .ok w →
      v.units.sameUnit w.units = true := by
  intro c hc d hd v w hv hw
  have hunit : (s.expectedUnit cells).Proper := by
    cases cells with
    | nil => cases hc
    | cons first rest =>
      obtain ⟨-, u, hu, -⟩ := holds first List.mem_cons_self
      rw [expectedUnit_cons hu]
      exact proper first List.mem_cons_self u hu
  obtain ⟨-, v', hv', -, hcv⟩ := holds c hc
  obtain ⟨-, w', hw', -, hdw⟩ := holds d hd
  obtain rfl := Except.ok.inj (hv.symm.trans hv')
  obtain rfl := Except.ok.inj (hw.symm.trans hw')
  rw [CompoundUnit.sameUnit_comm] at hcv
  exact hunit.sameUnit_trans hcv hdw

/-- The grid of the numbers in the cells has the shape and the positions of the cells. -/
theorem cells_of_ofRows? {xss : List (List Float)} {m : Matrix}
    (hall : List.Forall₂ (List.Forall₂ (s.HoldsNumber unit)) rows xss)
    (hm : Matrix.ofRows? xss = some m) : m.WellFormed ∧ m.rows = rows.length ∧
      (∀ row ∈ rows, row.length = m.cols) ∧ ∀ (i j : Nat) row cell, rows[i]? = some row →
        row[j]? = some cell → ∃ x, m.cell? i j = some x ∧ s.HoldsNumber unit cell x := by
  obtain ⟨hw, rfl⟩ := Matrix.wellFormed_of_ofRows? hm
  have ⟨_, _, hlength, hwidth⟩ := hw
  refine ⟨hw, ?_, ?_, ?_⟩
  · rw [← hlength]
    exact hall.length_eq.symm
  · intro row hr
    obtain ⟨xs, hxs, hrow⟩ := Lists.exists_of_forall₂ hall row hr
    exact hrow.length_eq.trans (hwidth xs hxs)
  · intro i j row cell hi hj
    obtain ⟨xs, hxs, hrow⟩ := Lists.getElem?_of_forall₂ hall hi
    obtain ⟨x, hx, hcell⟩ := Lists.getElem?_of_forall₂ hrow hj
    refine ⟨x, ?_, hcell⟩
    rw [Matrix.cell?, hxs]
    exact hx

/-- A matrix literal has a value exactly when the grid is one, not empty, and its cells hold numbers
in one unit: then it is the matrix of these numbers in that unit. Otherwise the first cell in the
order of the rows that is refused is to blame, for its own fault, its unit or its being a matrix;
only if no cell is refused is the literal itself to blame, for the shape of the grid. -/
theorem matrix_literal (s : Scope) (rows : List (List Equation))
    (h : s.BuiltFrom (fun _ => True) fun v => v.units.Proper) (hroom : s.HasRoom) :
    let literal : Equation := .matrix rows
    let cells := rows.flatten
    let unit := s.deeper.expectedUnit cells
    let holds := s.deeper.HoldsNumber unit
    ((∃ v, s.evaluate literal = .ok v) ↔ ¬ Matrix.Misshapen rows ∧
        (∀ c ∈ cells, ∃ v x, s.deeper.evaluate c = .ok v ∧ v.quantity = .number x) ∧
        ∀ c ∈ cells, ∀ d ∈ cells, ∀ v w, s.deeper.evaluate c = .ok v →
          s.deeper.evaluate d = .ok w → v.units.sameUnit w.units = true) ∧
      (∀ v, s.evaluate literal = .ok v → ∃ m,
        v = (if unit.isDimensionless then .matrix m else .measured unit (.matrix m)) ∧
        m.WellFormed ∧ m.rows = rows.length ∧ (∀ row ∈ rows, row.length = m.cols) ∧
        ∀ (i j : Nat) row cell, rows[i]? = some row → row[j]? = some cell →
          ∃ x, m.cell? i j = some x ∧ holds cell x) ∧
      ∀ stop, s.evaluate literal = .error stop ↔
        (∃ before cell after, cells = before ++ cell :: after ∧
          (∀ c ∈ before, ∃ x, holds c x) ∧ s.deeper.CellStops unit cell stop) ∨
        (∀ c ∈ cells, ∃ x, holds c x) ∧ Matrix.Misshapen rows ∧
          stop = .fault ⟨.malformedMatrix, literal⟩ := by
  intro literal cells unit holds
  have hnode : s.evaluate literal = s.deeper.evaluateNode literal := hroom.evaluate_eq literal
  have hproper : ∀ c ∈ cells, ∀ v, s.deeper.evaluate c = .ok v → v.units.Proper := by
    intro c _ v hv
    have hd : s.deeper.BuiltFrom (fun _ => True) fun v => v.units.Proper := h.congr rfl rfl
    exact good_of_evaluate (Value.closed_units CompoundUnit.closed_proper) hd hv
  rw [hnode]
  refine ⟨⟨?_, ?_⟩, ?_, fun stop => evaluateNode_matrix_eq_error⟩
  · rintro ⟨v, hv⟩
    obtain ⟨xss, m, hall, hm, -⟩ := evaluateNode_matrix_eq_ok.1 hv
    have hholds : ∀ c ∈ cells, ∃ x, holds c x := by
      rw [List.forall_mem_flatten]
      simpa only [Lists.exists_forall₂_iff] using Lists.exists_forall₂_iff.1 ⟨xss, hall⟩
    refine ⟨?_, ?_, like_of_holdsNumber hholds hproper⟩
    · rw [Matrix.misshapen_iff_of_forall₂ hall, ← Matrix.ofRows?_eq_none_iff, hm]
      simp
    · intro c hc
      obtain ⟨x, v, hv, hx, -⟩ := hholds c hc
      exact ⟨v, x, hv, hx⟩
  · rintro ⟨hshape, hscalars, hlike⟩
    have hholds := holdsNumber_of_like hscalars hlike
    cases hv : s.deeper.evaluateNode literal with
    | ok v => exact ⟨v, rfl⟩
    | error stop =>
      rcases evaluateNode_matrix_eq_error.1 hv with ⟨before, cell, after, hc, -, hs⟩ | ⟨-, hm, -⟩
      · obtain ⟨x, hx⟩ := hholds cell (by simp [cells, hc])
        cases (number_eq_ok.2 hx).symm.trans (number_eq_error.2 hs)
      · exact absurd hm hshape
  · intro v hv
    obtain ⟨xss, m, hall, hm, rfl⟩ := evaluateNode_matrix_eq_ok.1 hv
    exact ⟨m, rfl, cells_of_ofRows? hall hm⟩

/-- A length stands beside half of it, but not above a bare number. That the rows differ in length
does not count then, nor does what comes after the number. -/
theorem matrix_literal_sample :
    let length : Equation := .reference "length"
    let half : Equation := .binary .fraction length (.number 2.0)
    (∃ m, sample.evaluate (.matrix [[length, half]]) =
        .ok (.measured (.base "m") (.matrix m)) ∧
      ∃ x, m.cell? 0 1 = some x ∧ sample.deeper.HoldsNumber (.base "m") half x) ∧
      sample.evaluate (.matrix [[], [length], [.number 2.0, .missingOperand]]) =
        .error (.fault ⟨.cellUnits (.base "m") .dimensionless, .number 2.0⟩) := by
  intro length half
  have hscope : sample.BuiltFrom (fun _ => True) fun v => v.units.Proper :=
    sample_builtFrom (by decide)
  have hroom : sample.HasRoom := by
    intro n hn
    obtain rfl : 8 = n := Option.some.inj hn
    decide
  constructor
  · obtain ⟨-, hvalue, -⟩ := matrix_literal sample [[length, half]] hscope hroom
    obtain ⟨m, hm, -, -, -, hcells⟩ := hvalue _ rfl
    exact ⟨m, congrArg Except.ok hm, hcells 0 1 _ half rfl rfl⟩
  · obtain ⟨-, -, herror⟩ :=
      matrix_literal sample [[], [length], [.number 2.0, .missingOperand]] hscope hroom
    refine (herror _).2 (.inl ⟨[length], .number 2.0, [.missingOperand], rfl, ?_, ?_⟩)
    · intro c hc
      obtain rfl := List.mem_singleton.1 hc
      exact ⟨6.0, .measured (.base "m") (.number 6.0), rfl, rfl, by decide⟩
    · have hunit : (CompoundUnit.base "m").sameUnit CompoundUnit.dimensionless = false := by decide
      exact CellStops.units (v := .number 2.0) rfl hunit

end QuantityCalculus.Scope
