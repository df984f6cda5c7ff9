import QuantityCalculus.Evaluation
import QuantityCalculus.Proofs.Outcome

/-!
Matrix literals taken apart: which cells have been evaluated, and which of them stops the others.
-/
namespace QuantityCalculus.MatrixLiteral

variable {bindings : Bindings Value} {expected unit : Option CompoundUnit}

theorem cell_eq_ok {a : Argument} {u : CompoundUnit} {x : Float} :
    cell expected bindings a = .ok (u, x) ↔ ∃ v, a.value bindings = .ok v ∧
      v.quantity = .number x ∧ expected.getD v.units = u ∧ u.sameUnit v.units = true := by
  rw [cell, Outcome.bind_eq_ok]
  refine exists_congr fun v => and_congr_right fun _ => ?_
  by_cases hu : (expected.getD v.units).sameUnit v.units = true
  · cases v.quantity with
    | number y => simp [hu]; grind
    | matrix m => simp [hu]
  · simp [hu]; grind

theorem cell_eq_error {a : Argument} {stop : Stop} :
    cell expected bindings a = .error stop ↔ a.value bindings = .error stop ∨
      ∃ v, a.value bindings = .ok v ∧
        ((expected.getD v.units).sameUnit v.units = false ∧
            stop = .fault ⟨.cellUnits (expected.getD v.units) v.units, a.tree⟩ ∨
          (expected.getD v.units).sameUnit v.units = true ∧ v.quantity.kind = .matrix ∧
            stop = .fault ⟨.nestedMatrix, a.tree⟩) := by
  rw [cell, Outcome.bind_eq_error]
  refine or_congr_right (exists_congr fun v => and_congr_right fun _ => ?_)
  by_cases hu : (expected.getD v.units).sameUnit v.units = true
  · cases v.quantity <;> simp [hu, Quantity.kind]
  · simp [hu]

/-- The numbers of a row are those of its cells. The unit has what all units of cells have. -/
theorem row_eq_ok {P : CompoundUnit → Prop} {arguments : List Argument} {xs : List Float}
    (h : row expected bindings arguments = .ok (unit, xs)) (he : ∀ u ∈ expected, P u)
    (hc : ∀ a ∈ arguments, ∀ v, a.value bindings = .ok v → P v.units) :
    List.Forall₂ (fun a x => ∃ v, a.value bindings = .ok v ∧ v.quantity = .number x)
      arguments xs ∧ ∀ u ∈ unit, P u := by
  induction arguments generalizing expected xs with
  | nil =>
    rw [row] at h
    cases h
    exact ⟨.nil, he⟩
  | cons a rest ih =>
    rw [row, Outcome.bind_eq_ok] at h
    obtain ⟨⟨u, x⟩, hcell, h⟩ := h
    obtain ⟨⟨w, ys⟩, hrest, h⟩ := Outcome.bind_eq_ok.1 h
    obtain ⟨v, hv, hq, hu, -⟩ := cell_eq_ok.1 hcell
    have hp : P u := by
      have := hc a (by simp) v hv
      cases expected <;> grind
    cases h
    obtain ⟨hall, hunit⟩ := ih hrest (by simpa using hp) fun b hb => hc b (by simp [hb])
    exact ⟨.cons ⟨v, hv, hq⟩ hall, hunit⟩

theorem rows_eq_ok {P : CompoundUnit → Prop} {rowsOf : List (List Argument)}
    {xss : List (List Float)} (h : rows expected bindings rowsOf = .ok (unit, xss))
    (he : ∀ u ∈ expected, P u)
    (hc : ∀ row ∈ rowsOf, ∀ a ∈ row, ∀ v, a.value bindings = .ok v → P v.units) :
    List.Forall₂ (List.Forall₂ fun a x => ∃ v, a.value bindings = .ok v ∧ v.quantity = .number x)
      rowsOf xss ∧ ∀ u ∈ unit, P u := by
  induction rowsOf generalizing expected xss with
  | nil =>
    rw [rows] at h
    cases h
    exact ⟨.nil, he⟩
  | cons first rest ih =>
    rw [rows, Outcome.bind_eq_ok] at h
    obtain ⟨⟨u, xs⟩, hrow, h⟩ := h
    obtain ⟨⟨w, yss⟩, hrest, h⟩ := Outcome.bind_eq_ok.1 h
    cases h
    obtain ⟨hall, hu⟩ := row_eq_ok hrow he (hc first (by simp))
    obtain ⟨halls, hw⟩ := ih hrest hu fun row hr => hc row (by simp [hr])
    exact ⟨.cons hall halls, hw⟩

/-- A row stops at the first cell that is refused after the ones before it. -/
theorem row_eq_error {arguments : List Argument} {stop : Stop} :
    row expected bindings arguments = .error stop ↔ ∃ before a after u xs,
      arguments = before ++ a :: after ∧ row expected bindings before = .ok (u, xs) ∧
        cell u bindings a = .error stop := by
  induction arguments generalizing expected with
  | nil => simp [row]
  | cons a rest ih =>
    rw [row, Outcome.bind_eq_error]
    constructor
    · rintro (h | ⟨⟨u, x⟩, hc, h⟩)
      · exact ⟨[], a, rest, expected, [], rfl, rfl, h⟩
      · rcases Outcome.bind_eq_error.1 h with h | ⟨_, _, h⟩
        · obtain ⟨before, b, after, w, xs, rfl, hb, hs⟩ := ih.1 h
          refine ⟨a :: before, b, after, w, x :: xs, rfl, ?_, hs⟩
          simp only [row, hc, hb, Outcome.ok_bind]
          rfl
        · simp at h
    · rintro ⟨before, b, after, w, xs, h, hb, hs⟩
      cases before with
      | nil =>
        obtain ⟨rfl, rfl⟩ := List.cons.inj h
        obtain ⟨rfl, -⟩ := Prod.mk.inj (Except.ok.inj hb)
        exact .inl hs
      | cons first before =>
        obtain ⟨rfl, rfl⟩ := List.cons.inj h
        rw [row, Outcome.bind_eq_ok] at hb
        obtain ⟨⟨u, x⟩, hc, hb⟩ := hb
        obtain ⟨⟨w', ys⟩, hrow, hb⟩ := Outcome.bind_eq_ok.1 hb
        obtain ⟨rfl, -⟩ := Prod.mk.inj (Outcome.pure_eq_ok.1 hb)
        refine .inr ⟨(u, x), hc, Outcome.bind_eq_error.2 (.inl ?_)⟩
        exact ih.2 ⟨before, b, after, w', ys, rfl, hrow, hs⟩

/-- The unit that the cells of a literal are expected to have: that of the first one. -/
def firstUnit (cells : List (Outcome Value)) : CompoundUnit :=
  match cells.head? with
  | some (.ok v) => v.units
  | _ => .dimensionless

/-- The number in a cell of which a unit is expected. -/
def number (unit : CompoundUnit) (bindings : Bindings Value) (argument : Argument) :
    Outcome Float :=
  Prod.snd <$> cell (some unit) bindings argument

theorem cell_some (u : CompoundUnit) (a : Argument) :
    cell (some u) bindings a = (u, ·) <$> number u bindings a := by
  rw [number]
  cases h : cell (some u) bindings a with
  | error stop => rfl
  | ok c =>
    obtain ⟨w, x⟩ := c
    obtain ⟨v, -, -, rfl, -⟩ := cell_eq_ok.1 h
    rfl

/-- Where none is expected, the unit of the first cell could as well have been. -/
theorem cell_none (a : Argument) (others : List (Outcome Value)) : cell none bindings a =
    cell (some (firstUnit (a.value bindings :: others))) bindings a := by
  rw [cell, cell]
  cases a.value bindings <;> rfl

theorem row_some (u : CompoundUnit) (arguments : List Argument) :
    row (some u) bindings arguments =
      (fun xs => (some u, xs)) <$> arguments.mapM (number u bindings) := by
  induction arguments with
  | nil => rfl
  | cons a rest ih =>
    simp only [row, cell_some, ih, List.mapM_cons, map_eq_pure_bind, bind_assoc, pure_bind]

theorem rows_some (u : CompoundUnit) (rowsOf : List (List Argument)) :
    rows (some u) bindings rowsOf =
      (fun xss => (some u, xss)) <$> rowsOf.mapM (List.mapM (number u bindings)) := by
  induction rowsOf with
  | nil => rfl
  | cons first rest ih =>
    simp only [rows, row_some, ih, List.mapM_cons, map_eq_pure_bind, bind_assoc, pure_bind]

theorem row_expected {u : CompoundUnit} {arguments : List Argument} {xs : List Float}
    (h : row (some u) bindings arguments = .ok (unit, xs)) : unit = some u := by
  rw [row_some, Outcome.map_eq_ok] at h
  obtain ⟨ys, -, h⟩ := h
  exact (Prod.mk.inj h).1.symm

/-- Where none is expected, the unit of the first cell is expected of all the others. -/
theorem row_first {a : Argument} {rest : List Argument} {xs : List Float}
    (h : row none bindings (a :: rest) = .ok (unit, xs)) :
    ∃ v, a.value bindings = .ok v ∧ unit = some v.units := by
  rw [row, Outcome.bind_eq_ok] at h
  obtain ⟨⟨u, x⟩, hc, h⟩ := h
  obtain ⟨⟨w, ys⟩, hrow, h⟩ := Outcome.bind_eq_ok.1 h
  obtain ⟨rfl, -⟩ := Prod.mk.inj (Outcome.pure_eq_ok.1 h)
  obtain ⟨v, hv, -, rfl, -⟩ := cell_eq_ok.1 hc
  exact ⟨v, hv, row_expected hrow⟩

theorem row_append (first rest : List Argument) :
    row expected bindings (first ++ rest) = (do
      let (u, xs) ← row expected bindings first
      let (w, ys) ← row u bindings rest
      return (w, xs ++ ys)) := by
  induction first generalizing expected with
  | nil =>
    simp only [List.nil_append, row, Outcome.ok_bind]
    cases row expected bindings rest <;> rfl
  | cons a first ih => simp only [List.cons_append, row, ih, bind_assoc, pure_bind]

/-- The cells are worked off row by row, as if they stood in one. -/
theorem row_flatten (rowsOf : List (List Argument)) :
    row expected bindings rowsOf.flatten =
      (fun (u, xss) => (u, xss.flatten)) <$> rows expected bindings rowsOf := by
  induction rowsOf generalizing expected with
  | nil => rfl
  | cons first rest ih =>
    simp only [List.flatten_cons, row_append, ih, rows, map_eq_pure_bind, bind_assoc, pure_bind]

theorem rows_eq_error {rowsOf : List (List Argument)} {stop : Stop} :
    rows expected bindings rowsOf = .error stop ↔
      row expected bindings rowsOf.flatten = .error stop := by
  rw [row_flatten, Outcome.map_eq_error]

/-- A row without cells leaves the unit open. -/
theorem rows_none (rowsOf : List (List Argument)) :
    (fun (u, xss) => (u.getD .dimensionless, xss)) <$> rows none bindings rowsOf =
      (let u := firstUnit (rowsOf.flatten.map fun a => a.value bindings)
      (fun xss => (u, xss)) <$> rowsOf.mapM (List.mapM (number u bindings))) := by
  induction rowsOf with
  | nil => rfl
  | cons first rest ih =>
    cases first with
    | nil =>
      have hrows : rows none bindings ([] :: rest) =
          (fun (u, xss) => (u, [] :: xss)) <$> rows none bindings rest := rfl
      simp only [hrows, List.flatten_cons, List.nil_append, List.mapM_cons, List.mapM_nil,
        pure_bind, map_eq_pure_bind, bind_assoc] at ih ⊢
      have hcons := congrArg (fun x => x >>= fun (u, xss) => pure (u, [] :: xss)) ih
      simpa only [bind_assoc, pure_bind] using hcons
    | cons a cells =>
      have hrow (others : List (Outcome Value)) : row none bindings (a :: cells) =
          row (some (firstUnit (a.value bindings :: others))) bindings (a :: cells) := by
        rw [row, cell_none a others, row]
      simp only [List.flatten_cons, List.cons_append, List.map_cons]
      rw [rows, hrow, ← rows, rows_some, Functor.map_map]
      rfl

/-- The numbers of the cells are found first, and then the matrix that they make. -/
theorem value_eq_bind (site : Equation) (rowsOf : List (List Argument)) :
    value site bindings rowsOf =
      (let u := firstUnit (rowsOf.flatten.map fun a => a.value bindings)
      do
        let xss ← rowsOf.mapM (List.mapM (number u bindings))
        match Matrix.ofRows? xss with
        | some m => return .ofParts u (.matrix m)
        | none => Outcome.blame site .malformedMatrix) := by
  let shape : CompoundUnit × List (List Float) → Outcome Value := fun (u, xss) =>
    match Matrix.ofRows? xss with
    | some m => pure (.ofParts u (.matrix m))
    | none => Outcome.blame site .malformedMatrix
  calc
    value site bindings rowsOf =
        (fun (u, xss) => (u.getD .dimensionless, xss)) <$> rows none bindings rowsOf >>= shape := by
      rw [map_eq_pure_bind, bind_assoc]
      rfl
    _ = _ := by
      rw [rows_none, map_eq_pure_bind, bind_assoc]
      rfl

theorem value_eq_ok {site : Equation} {arguments : List (List Argument)} {v : Value} :
    value site bindings arguments = .ok v ↔ ∃ u cells m,
      rows none bindings arguments = .ok (u, cells) ∧ Matrix.ofRows? cells = some m ∧
        v = .ofParts (u.getD .dimensionless) (.matrix m) := by
  rw [value, Outcome.bind_eq_ok]
  constructor
  · rintro ⟨⟨u, cells⟩, h, hm⟩
    cases hr : Matrix.ofRows? cells with
    | none => simp [hr] at hm
    | some m =>
      simp only [hr] at hm
      exact ⟨u, cells, m, h, hr, (Outcome.pure_eq_ok.1 hm).symm⟩
  · rintro ⟨u, cells, m, h, hr, rfl⟩
    exact ⟨(u, cells), h, by simp [hr]⟩

theorem value_eq_error {site : Equation} {arguments : List (List Argument)} {stop : Stop} :
    value site bindings arguments = .error stop ↔ rows none bindings arguments = .error stop ∨
      ∃ u cells, rows none bindings arguments = .ok (u, cells) ∧ Matrix.ofRows? cells = none ∧
        stop = .fault ⟨.malformedMatrix, site⟩ := by
  rw [value, Outcome.bind_eq_error]
  refine or_congr_right ?_
  constructor
  · rintro ⟨⟨u, cells⟩, h, hm⟩
    cases hr : Matrix.ofRows? cells with
    | none => exact ⟨u, cells, h, hr, by simpa [hr] using hm⟩
    | some m => simp [hr] at hm
  · rintro ⟨u, cells, h, hr, rfl⟩
    exact ⟨(u, cells), h, by simp [hr]⟩

end QuantityCalculus.MatrixLiteral
