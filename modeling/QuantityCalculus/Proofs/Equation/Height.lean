import QuantityCalculus.Proofs.Equation.Parts

/-!
The height of a tree and the levels at which other trees stand in it. The root is at level one, and
the height is the last level that there is.
-/
namespace QuantityCalculus.Equation

mutual

/-- A leaf has height one. Cells of a matrix and all arguments of a call count as children. -/
def height : Equation → Nat
  | .number _ | .reference _ | .missingOperand | .unreadable _ => 1
  | .block a | .signed _ a | .missingSign a => a.height + 1
  | .binary _ a b | .comparison _ a b | .missingOperator a b => max a.height b.height + 1
  | .call _ arguments | .missingFunction arguments => greatestHeight arguments + 1
  | .matrix rows => greatestHeightOfRows rows + 1

def greatestHeight : List Equation → Nat
  | [] => 0
  | tree :: rest => max tree.height (greatestHeight rest)

def greatestHeightOfRows : List (List Equation) → Nat
  | [] => 0
  | row :: rest => max (greatestHeight row) (greatestHeightOfRows rest)

end

theorem greatestHeight_append (first rest : List Equation) :
    greatestHeight (first ++ rest) = max (greatestHeight first) (greatestHeight rest) := by
  induction first with
  | nil => simp [greatestHeight]
  | cons tree first ih => rw [List.cons_append, greatestHeight, ih, greatestHeight, Nat.max_assoc]

theorem greatestHeightOfRows_eq (rows : List (List Equation)) :
    greatestHeightOfRows rows = greatestHeight rows.flatten := by
  induction rows with
  | nil => rfl
  | cons row rest ih =>
    rw [greatestHeightOfRows, List.flatten_cons, greatestHeight_append, ih]

theorem height_eq (e : Equation) : e.height = greatestHeight e.parts + 1 := by
  cases e with
  | matrix rows => rw [height, greatestHeightOfRows_eq, parts]
  | _ => simp [height, parts, greatestHeight]

theorem height_le_greatestHeight {trees : List Equation} {p : Equation} (h : p ∈ trees) :
    p.height ≤ greatestHeight trees := by
  induction trees with
  | nil => cases h
  | cons tree rest ih =>
    rw [greatestHeight]
    rcases List.mem_cons.1 h with rfl | h
    · omega
    · have := ih h
      omega

theorem exists_height_eq_greatestHeight {trees : List Equation} (h : trees ≠ []) :
    ∃ p ∈ trees, p.height = greatestHeight trees := by
  induction trees with
  | nil => exact absurd rfl h
  | cons tree rest ih =>
    rw [greatestHeight]
    by_cases hr : greatestHeight rest ≤ tree.height
    · exact ⟨tree, List.mem_cons_self, (Nat.max_eq_left hr).symm⟩
    · have hne : rest ≠ [] := by
        rintro rfl
        exact hr (Nat.zero_le _)
      obtain ⟨p, hp, he⟩ := ih hne
      exact ⟨p, List.mem_cons_of_mem _ hp, by omega⟩

theorem height_pos (e : Equation) : 0 < e.height := by
  rw [height_eq]
  omega

theorem height_lt_of_mem_parts {e p : Equation} (h : p ∈ e.parts) : p.height < e.height := by
  have := height_le_greatestHeight h
  rw [height_eq e]
  omega

/-- A tree that is no leaf has a part of all its height but one. -/
theorem exists_part_height {e : Equation} (h : 1 < e.height) :
    ∃ p ∈ e.parts, e.height = p.height + 1 := by
  rw [height_eq] at h ⊢
  have hne : e.parts ≠ [] := by
    intro hp
    simp [hp, greatestHeight] at h
  obtain ⟨p, hp, he⟩ := exists_height_eq_greatestHeight hne
  exact ⟨p, hp, by rw [he]⟩

/-- The tree `p` stands in `e` at the level. -/
inductive AtLevel (e : Equation) : Nat → Equation → Prop where
  | root : AtLevel e 1 e
  | part {level : Nat} {p q : Equation} (h : AtLevel e level q) (hp : p ∈ q.parts) :
      AtLevel e (level + 1) p

variable {e p q : Equation} {level : Nat}

theorem AtLevel.of_part (h : p.AtLevel level q) (hp : p ∈ e.parts) : e.AtLevel (level + 1) q := by
  induction h with
  | root => exact .part .root hp
  | part _ hq ih => exact .part ih hq

theorem AtLevel.add_height_le (h : e.AtLevel level p) : level + p.height ≤ e.height + 1 := by
  induction h with
  | root => omega
  | part _ hp ih =>
    have := height_lt_of_mem_parts hp
    omega

theorem AtLevel.le_height (h : e.AtLevel level p) : level ≤ e.height := by
  have := h.add_height_le
  have := p.height_pos
  omega

end QuantityCalculus.Equation
