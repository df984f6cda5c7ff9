import QuantityCalculus.Matrix
import QuantityCalculus.Proofs.Lists

/-!
Well-formed matrices: the operations that keep them so, and the cells that they are sure to have.
-/
namespace QuantityCalculus.Matrix

variable {m n r : Matrix}

theorem WellFormed.map (h : m.WellFormed) (f : Float → Float) : (m.map f).WellFormed := by
  obtain ⟨hr, hc, hl, hw⟩ := h
  refine ⟨hr, hc, ?_, ?_⟩
  · simpa [Matrix.map] using hl
  · intro row hrow
    obtain ⟨old, ho, rfl⟩ := List.mem_map.1 hrow
    simpa [Matrix.map] using hw old ho

theorem WellFormed.zipWith? (hm : m.WellFormed) (hn : n.WellFormed) {f : Float → Float → Float}
    (h : m.zipWith? n f = some r) : r.WellFormed := by
  unfold Matrix.zipWith? at h
  split at h
  · rename_i hs
    obtain rfl := Option.some.inj h
    obtain ⟨hr, hc, hl, hw⟩ := hm
    obtain ⟨-, -, hl', hw'⟩ := hn
    have hrows : m.rows = n.rows := congrArg Shape.rows hs
    have hcols : m.cols = n.cols := congrArg Shape.cols hs
    refine ⟨hr, hc, ?_, ?_⟩
    · change (List.zipWith _ m.cells n.cells).length = m.rows
      rw [List.length_zipWith]
      omega
    · intro row hrow
      rw [← List.map_uncurry_zip_eq_zipWith] at hrow
      obtain ⟨⟨p, q⟩, hpq, rfl⟩ := List.mem_map.1 hrow
      have hp := hw p (List.of_mem_zip hpq).1
      have hq := hw' q (List.of_mem_zip hpq).2
      change (List.zipWith f p q).length = m.cols
      rw [List.length_zipWith]
      omega
  · simp at h

theorem exists_zipWith? (h : m.shape = n.shape) (f : Float → Float → Float) :
    ∃ r, m.zipWith? n f = some r :=
  ⟨_, if_pos h⟩

theorem shape_zipWith? {f : Float → Float → Float} (h : m.zipWith? n f = some r) :
    r.shape = m.shape := by
  unfold Matrix.zipWith? at h
  split at h
  · obtain rfl := Option.some.inj h
    rfl
  · cases h

theorem wellFormed_of_tabulate? {rows cols : Nat} {f : Nat → Nat → Option Float} (hr : 1 ≤ rows)
    (hc : 1 ≤ cols) (h : tabulate? rows cols f = some r) : r.WellFormed := by
  rw [tabulate?, Option.bind_eq_bind, Option.bind_eq_some_iff] at h
  obtain ⟨cells, hcells, h⟩ := h
  obtain rfl := Option.some.inj h
  have hall := Lists.mapM_eq_some hcells
  refine ⟨hr, hc, ?_, ?_⟩
  · simpa using hall.length_eq.symm
  · intro row hrow
    obtain ⟨i, -, hi⟩ := Lists.exists_of_forall₂ hall.flip row hrow
    simpa using (Lists.mapM_eq_some hi).length_eq.symm

theorem exists_tabulate? {rows cols : Nat} {f : Nat → Nat → Option Float}
    (h : ∀ row col, row < rows → col < cols → ∃ x, f row col = some x) :
    ∃ r, tabulate? rows cols f = some r := by
  obtain ⟨cells, hcells⟩ : ∃ cells, (List.range rows).mapM
      (fun row => (List.range cols).mapM (f row)) = some cells := by
    apply Lists.exists_mapM_eq_some
    intro row hrow
    apply Lists.exists_mapM_eq_some
    intro col hcol
    exact h row col (List.mem_range.1 hrow) (List.mem_range.1 hcol)
  exact ⟨⟨rows, cols, cells⟩, by simp [tabulate?, hcells]⟩

theorem WellFormed.exists_cell? (h : m.WellFormed) {row col : Nat} (hr : row < m.rows)
    (hc : col < m.cols) : ∃ x, m.cell? row col = some x := by
  obtain ⟨-, -, hl, hw⟩ := h
  have hrow : row < m.cells.length := by omega
  have hcol : col < m.cells[row].length := by
    have := hw _ (List.getElem_mem hrow)
    omega
  refine ⟨m.cells[row][col], ?_⟩
  rw [cell?, List.getElem?_eq_getElem hrow]
  exact List.getElem?_eq_getElem hcol

/-- No row is empty. -/
theorem WellFormed.exists_head? (h : m.WellFormed) {row : List Float} (hr : row ∈ m.cells) :
    ∃ x, row.head? = some x := by
  obtain ⟨-, hc, -, hw⟩ := h
  have hl := hw row hr
  cases row with
  | nil => rw [List.length_nil] at hl; omega
  | cons x rest => exact ⟨x, rfl⟩

/-- Empty, with an empty row, or ragged. -/
def Misshapen {α : Type} (rows : List (List α)) : Prop :=
  rows = [] ∨ [] ∈ rows ∨ ∃ p ∈ rows, ∃ q ∈ rows, p.length ≠ q.length

theorem misshapen_of_ofRows? {cells : List (List Float)} (h : ofRows? cells = none) :
    Misshapen cells := by
  cases cells with
  | nil => exact .inl rfl
  | cons first rest =>
    by_cases hf : first = []
    · exact .inr (.inl (by simp [hf]))
    · have hrest : ∃ row ∈ rest, row.length ≠ first.length := by
        simpa [ofRows?, hf] using h
      obtain ⟨row, hr, hne⟩ := hrest
      exact .inr (.inr ⟨row, by simp [hr], first, by simp, hne⟩)

theorem WellFormed.not_misshapen (h : m.WellFormed) : ¬ Misshapen m.cells := by
  obtain ⟨hr, hc, hl, hw⟩ := h
  rintro (hn | he | ⟨p, hp, q, hq, hne⟩)
  · rw [hn, List.length_nil] at hl
    omega
  · have := hw [] he
    rw [List.length_nil] at this
    omega
  · exact hne ((hw p hp).trans (hw q hq).symm)

theorem ofRows?_eq_none_iff {cells : List (List Float)} :
    ofRows? cells = none ↔ Misshapen cells := by
  constructor
  · exact misshapen_of_ofRows?
  · intro hm
    cases h : ofRows? cells with
    | none => rfl
    | some m =>
      obtain ⟨hw, rfl⟩ := wellFormed_of_ofRows? h
      exact absurd hm hw.not_misshapen

theorem Misshapen.of_forall₂ {α β : Type} {R : α → β → Prop} {rows : List (List α)}
    {others : List (List β)} (h : Misshapen rows) (hr : List.Forall₂ (List.Forall₂ R) rows others) :
    Misshapen others := by
  rcases h with rfl | hm | ⟨p, hp, q, hq, hne⟩
  · exact .inl (List.forall₂_nil_left_iff.1 hr)
  · obtain ⟨row, hm, hrow⟩ := Lists.exists_of_forall₂ hr [] hm
    obtain rfl := List.forall₂_nil_left_iff.1 hrow
    exact .inr (.inl hm)
  · obtain ⟨p', hp', hpp⟩ := Lists.exists_of_forall₂ hr p hp
    obtain ⟨q', hq', hqq⟩ := Lists.exists_of_forall₂ hr q hq
    have hlengths : p'.length ≠ q'.length := by
      rw [← hpp.length_eq, ← hqq.length_eq]
      exact hne
    exact .inr (.inr ⟨p', hp', q', hq', hlengths⟩)

theorem misshapen_iff_of_forall₂ {α β : Type} {R : α → β → Prop} {rows : List (List α)}
    {others : List (List β)} (hr : List.Forall₂ (List.Forall₂ R) rows others) :
    Misshapen rows ↔ Misshapen others := by
  constructor
  · intro h
    exact h.of_forall₂ hr
  · intro h
    have hflip : List.Forall₂ (List.Forall₂ (flip R)) others rows :=
      hr.flip.imp fun _ _ h => h.flip
    exact h.of_forall₂ hflip

end QuantityCalculus.Matrix
