import QuantityCalculus.Proofs.Arithmetic.Table
import QuantityCalculus.Proofs.CompoundUnit.Pointwise
import QuantityCalculus.Proofs.Value.Equality

/-!
Sums and products with the operands exchanged. The results are equal, or opposite for the vector
product, and a fault turns into the same kind of fault with its fields exchanged.
-/
namespace QuantityCalculus

/-- One kind of cause, with what it says about the operands exchanged. -/
inductive Cause.Exchanges (a b : Value) : Cause → Cause → Prop where
  | unlikeUnits : Exchanges a b (.unlikeUnits a.units b.units) (.unlikeUnits b.units a.units)
  | unlikeShapes (r t : Shape) : Exchanges a b (.unlikeShapes r t) (.unlikeShapes t r)
  | scalarProductLengths (i j : Nat) :
      Exchanges a b (.scalarProductLengths i j) (.scalarProductLengths j i)
  | vectorProductLengths (i j : Nat) :
      Exchanges a b (.vectorProductLengths i j) (.vectorProductLengths j i)
  | exponentRange : Exchanges a b (.exponentRange a.units) (.exponentRange b.units)

namespace Value

/-- One unit and the same numbers, so that the values are equal unless a number is NaN. -/
structure Same (v w : Value) : Prop where
  units : v.units.sameUnit w.units = true
  quantity : v.quantity = w.quantity
  equal : v.quantity.NaNFree → v.equal w = true

/-- One unit, and each value equal to the other one negated unless a number is NaN. -/
structure Opposed (v w : Value) : Prop where
  units : v.units.sameUnit w.units = true
  equal : v.quantity.NaNFree → v.equal w.negate = true

theorem same_ofParts {u v : CompoundUnit} {p q : Quantity} (hu : u.sameUnit v = true)
    (hq : p = q) : Same (ofParts u p) (ofParts v q) := by
  refine ⟨by simpa using hu, by simpa using hq, ?_⟩
  intro h
  rw [quantity_ofParts] at h
  exact equal_ofParts hu (hq ▸ Quantity.equal_self h)

theorem opposed_ofParts {u v : CompoundUnit} {p q : Quantity} (hu : u.sameUnit v = true)
    (hq : p.NaNFree → p.equal q.negate = true) : Opposed (ofParts u p) (ofParts v q) := by
  refine ⟨by simpa using hu, ?_⟩
  intro h
  rw [quantity_ofParts] at h
  rw [negate_ofParts]
  exact equal_ofParts hu (hq h)

end Value

namespace Arithmetic

variable {site : Equation} {m n : Matrix} {p q : Quantity} {a b : Value} {α : Type}

/-- What is found with the operands in either order: results in the relation, or causes with their
fields exchanged. -/
inductive Exchanged (a b : Value) (R : α → α → Prop) : Except Cause α → Except Cause α → Prop where
  | result {x y : α} (h : R x y) : Exchanged a b R (.ok x) (.ok y)
  | cause {c d : Cause} (h : c.Exchanges a b d) : Exchanged a b R (.error c) (.error d)

/-- Values in the relation, or faults at the site whose causes have their fields exchanged. -/
def ExchangedAt (site : Equation) (a b : Value) (R : Value → Value → Prop)
    (x y : Outcome Value) : Prop :=
  (∃ v w, x = .ok v ∧ y = .ok w ∧ R v w) ∨
    ∃ c d, x = Outcome.blame site c ∧ y = Outcome.blame site d ∧ c.Exchanges a b d

theorem ExchangedAt.of_ok {R : Value → Value → Prop} {x y : Outcome Value} {v : Value}
    (h : ExchangedAt site a b R x y) (hx : x = .ok v) : ∃ w, y = .ok w ∧ R v w := by
  rcases h with ⟨v', w, hv, hw, hr⟩ | ⟨c, d, hc, -, -⟩
  · obtain rfl : v' = v := Except.ok.inj (hv.symm.trans hx)
    exact ⟨w, hw, hr⟩
  · exact absurd (hc.symm.trans hx) Outcome.blame_ne_ok

theorem ExchangedAt.of_blame {R : Value → Value → Prop} {x y : Outcome Value} {c : Cause}
    (h : ExchangedAt site a b R x y) (hx : x = Outcome.blame site c) :
    ∃ d, y = Outcome.blame site d ∧ c.Exchanges a b d := by
  rcases h with ⟨v, w, hv, -, -⟩ | ⟨c', d, hc, hd, hcd⟩
  · exact absurd (hx.symm.trans hv) Outcome.blame_ne_ok
  · obtain rfl : c' = c := by
      have hsame : Outcome.blame site c' = (Outcome.blame site c : Outcome Value) :=
        hc.symm.trans hx
      simpa [Outcome.blame] using hsame
    exact ⟨d, hd, hcd⟩

theorem Exchanged.located {R : Value → Value → Prop} {x y : Except Cause Value}
    (h : Exchanged a b R x y) (site : Equation) :
    ExchangedAt site a b R (located site x) (located site y) := by
  cases h with
  | result h => exact .inl ⟨_, _, rfl, rfl, h⟩
  | cause h => exact .inr ⟨_, _, rfl, rfl, h⟩

theorem Row.value_exchanged {row : Row} {R : Quantity → Quantity → Prop}
    {S : Value → Value → Prop}
    (hu : Exchanged a b (fun u v => u.sameUnit v = true) (row.unit a b) (row.unit b a))
    (hq : Exchanged a b R (row.quantity a.quantity b.quantity)
      (row.quantity b.quantity a.quantity))
    (hS : ∀ u v p q, u.sameUnit v = true → R p q → S (.ofParts u p) (.ofParts v q)) :
    Exchanged a b S (row.value a b) (row.value b a) := by
  simp only [Row.value]
  generalize row.unit a b = x at hu
  generalize row.unit b a = y at hu
  generalize row.quantity a.quantity b.quantity = p at hq
  generalize row.quantity b.quantity a.quantity = q at hq
  cases hu with
  | cause h => exact .cause h
  | result hunit =>
    cases hq with
    | cause h => exact .cause h
    | result hquantity => exact .result (hS _ _ _ _ hunit hquantity)

section Units

theorem sum_unit_exchanged (a b : Value) : Exchanged a b (fun u v => u.sameUnit v = true)
    ((Row.sum id).unit a b) ((Row.sum id).unit b a) := by
  simp only [Row.sum, CompoundUnit.sameUnit_comm b.units a.units]
  split
  · rename_i h
    exact .result h
  · exact .cause .unlikeUnits

theorem product_unit_exchanged (columns : Matrix → Matrix → Except Cause Quantity)
    (a b : Value) : Exchanged a b (fun u v => u.sameUnit v = true)
      ((Row.product columns).unit a b) ((Row.product columns).unit b a) := by
  simp only [Row.product, CompoundUnit.multiply?_comm b.units a.units]
  cases a.units.multiply? b.units with
  | none => exact .cause .exponentRange
  | some u => exact .result u.sameUnit_self

end Units

section Quantities

theorem sum_quantity_exchanged (a b : Value) (p q : Quantity) :
    Exchanged a b Eq ((Row.sum id).quantity p q) ((Row.sum id).quantity q p) := by
  cases p with
  | number x =>
    cases q with
    | number y => exact .result (congrArg Quantity.number (Binary64.add_comm x y))
    | matrix n => exact .result rfl
  | matrix m =>
    cases q with
    | number y => exact .result rfl
    | matrix n =>
      simp only [Row.quantity, Row.sum, eq_comm (a := n.shape)]
      split
      · rename_i h
        have hrows : m.rows = n.rows := congrArg Shape.rows h
        have hcols : m.cols = n.cols := congrArg Shape.cols h
        refine .result ?_
        simp only [hrows, hcols, id, Binary64.add_comm (m.entry _ _)]
      · exact .cause (.unlikeShapes _ _)

/-- A number multiplies the entries from the right on either side. -/
theorem product_quantity_exchanged (columns : Matrix → Matrix → Except Cause Quantity)
    (a b : Value) (h : p.kind = .number ∨ q.kind = .number) :
    Exchanged a b Eq ((Row.product columns).quantity p q) ((Row.product columns).quantity q p) := by
  cases p with
  | number x =>
    cases q with
    | number y => exact .result (congrArg Quantity.number (Binary64.mul_comm x y))
    | matrix n => exact .result rfl
  | matrix m =>
    cases q with
    | number y => exact .result rfl
    | matrix n => rcases h with h | h <;> cases h

theorem scalarColumns_exchanged (a b : Value) (m n : Matrix) :
    Exchanged a b Eq (Row.scalarColumns m n) (Row.scalarColumns n m) := by
  simp only [Row.scalarColumns, eq_comm (a := n.rows)]
  split
  · rename_i h
    refine .result ?_
    simp only [h, Binary64.mul_comm (m.entry _ _)]
  · exact .cause (.scalarProductLengths _ _)

theorem component_exchanged {x y z w : Float} (h : (x * y - z * w).isNaN = false) :
    (x * y - z * w == -(w * z - y * x)) = true := by
  rw [Binary64.mul_comm w z, Binary64.mul_comm y x]
  exact Binary64.sub_beq_neg_sub h

/-- Each component is a difference that the exchange turns round. -/
theorem vectorColumns_exchanged (a b : Value) (m n : Matrix) :
    Exchanged a b (fun p q => p.NaNFree → p.equal q.negate = true) (Row.vectorColumns m n)
      (Row.vectorColumns n m) := by
  simp only [Row.vectorColumns, and_comm (a := n.rows = 3)]
  split
  · refine .result ?_
    intro h
    obtain ⟨hfirst, hrest⟩ := List.forall_mem_cons.1 h
    obtain ⟨hsecond, hrest⟩ := List.forall_mem_cons.1 hrest
    have hthird := List.forall_mem_singleton.1 hrest
    rw [List.forall_mem_singleton] at hfirst hsecond hthird
    simp only [Quantity.negate, Quantity.equal, Matrix.map, Matrix.equal, Matrix.cellsEqual,
      List.map_cons, List.map_nil, Matrix.rowsEqual, component_exchanged hfirst,
      component_exchanged hsecond, component_exchanged hthird]
    rfl
  · exact .cause (.vectorProductLengths _ _)

end Quantities

section Operators

variable (ha : a.WellFormed) (hb : b.WellFormed)

include ha hb

theorem plus_exchanged (site : Equation) :
    ExchangedAt site a b Value.Same (plus site a b) (plus site b a) := by
  rw [plus_eq ha hb site id rfl (applied_id b.quantity).symm,
    plus_eq hb ha site id rfl (applied_id a.quantity).symm]
  have hquantity := sum_quantity_exchanged a b a.quantity b.quantity
  exact (Row.value_exchanged (sum_unit_exchanged a b) hquantity
    fun _ _ _ _ => Value.same_ofParts).located site

theorem multiply_exchanged {R : Quantity → Quantity → Prop} {S : Value → Value → Prop}
    (rule : VectorRule) (site : Equation)
    (hq : Exchanged a b R ((Row.product rule.columns).quantity a.quantity b.quantity)
      ((Row.product rule.columns).quantity b.quantity a.quantity))
    (hS : ∀ u v p q, u.sameUnit v = true → R p q → S (.ofParts u p) (.ofParts v q)) :
    ExchangedAt site a b S (multiply site rule a b) (multiply site rule b a) := by
  rw [multiply_eq ha hb, multiply_eq hb ha]
  exact (Row.value_exchanged (product_unit_exchanged _ a b) hq hS).located site

/-- Sums commute, and so do products of which one factor is a number and scalar products. Vector
products change their sign. A fault of either order is the same fault of the other order with its
fields exchanged. -/
theorem operands_exchanged (site : Equation) :
    ExchangedAt site a b Value.Same (plus site a b) (plus site b a) ∧
    (a.quantity.kind = .number ∨ b.quantity.kind = .number → ∀ rule,
      ExchangedAt site a b Value.Same (multiply site rule a b) (multiply site rule b a)) ∧
    ∀ m n : Matrix, a.quantity = .matrix m → b.quantity = .matrix n → m.cols = 1 → n.cols = 1 →
      ExchangedAt site a b Value.Same (multiply site .scalar a b) (multiply site .scalar b a) ∧
      ExchangedAt site a b Value.Opposed (multiply site .vector a b)
        (multiply site .vector b a) := by
  refine ⟨plus_exchanged ha hb site, ?_, ?_⟩
  · intro hkind rule
    exact multiply_exchanged ha hb rule site (product_quantity_exchanged _ a b hkind)
      fun _ _ _ _ => Value.same_ofParts
  · intro m n hm hn hmc hnc
    have hcolumns (rule : VectorRule) :
        (Row.product rule.columns).quantity a.quantity b.quantity = rule.columns m n ∧
          (Row.product rule.columns).quantity b.quantity a.quantity = rule.columns n m := by
      rw [hm, hn]
      exact ⟨if_pos ⟨hmc, hnc⟩, if_pos ⟨hnc, hmc⟩⟩
    constructor
    · obtain ⟨hleft, hright⟩ := hcolumns .scalar
      refine multiply_exchanged ha hb .scalar site ?_ fun _ _ _ _ => Value.same_ofParts
      rw [hleft, hright]
      exact scalarColumns_exchanged a b m n
    · obtain ⟨hleft, hright⟩ := hcolumns .vector
      refine multiply_exchanged ha hb .vector site ?_ fun _ _ _ _ => Value.opposed_ofParts
      rw [hleft, hright]
      exact vectorColumns_exchanged a b m n

end Operators

/-- The vector product of a column of lengths and one of times, and its opposite; their sum, which
is refused in either order; and a column of lengths doubled from either side. -/
theorem operands_exchanged_sample :
    let lengths : Value := .measured (.base "m") (.matrix ⟨3, 1, [[1.0], [2.0], [3.0]]⟩)
    let times : Value := .measured (.base "s") (.matrix ⟨3, 1, [[4.0], [5.0], [6.0]]⟩)
    (∃ v w, multiply .missingOperand .vector lengths times = .ok v ∧
      multiply .missingOperand .vector times lengths = .ok w ∧ v.equal w.negate = true) ∧
    (∃ c d, plus .missingOperand lengths times = Outcome.blame .missingOperand c ∧
      plus .missingOperand times lengths = Outcome.blame .missingOperand d ∧
      c.Exchanges lengths times d) ∧
    ∃ v w, multiply .missingOperand .ambiguous lengths (.number 2.0) = .ok v ∧
      multiply .missingOperand .ambiguous (.number 2.0) lengths = .ok w ∧ v.equal w = true := by
  have hproduct : multiply .missingOperand .vector
      (.measured (.base "m") (.matrix ⟨3, 1, [[1.0], [2.0], [3.0]]⟩))
      (.measured (.base "s") (.matrix ⟨3, 1, [[4.0], [5.0], [6.0]]⟩)) = .ok
        (.measured (.ofPowers [("m", 1), ("s", 1)])
          (.matrix ⟨3, 1, [[-3.0], [6.0], [-3.0]]⟩)) := by
    rw [multiply_eq (by decide) (by decide)]
    rfl
  have hdouble : multiply .missingOperand .ambiguous
      (.measured (.base "m") (.matrix ⟨3, 1, [[1.0], [2.0], [3.0]]⟩)) (.number 2.0) = .ok
        (.measured (.base "m") (.matrix ⟨3, 1, [[2.0], [4.0], [6.0]]⟩)) := rfl
  intro lengths times
  have hlengths : lengths.WellFormed := by decide
  have htimes : times.WellFormed := by decide
  have hrefused : plus .missingOperand lengths times =
      Outcome.blame .missingOperand (.unlikeUnits (.base "m") (.base "s")) := rfl
  obtain ⟨hplus, -, hcolumns⟩ := operands_exchanged hlengths htimes .missingOperand
  obtain ⟨-, hnumber, -⟩ :=
    operands_exchanged hlengths (b := .number 2.0) (by decide) .missingOperand
  obtain ⟨w, hw, hopposed⟩ := (hcolumns _ _ rfl rfl rfl rfl).2.of_ok hproduct
  obtain ⟨t, ht, hsame⟩ := (hnumber (.inr rfl) .ambiguous).of_ok hdouble
  obtain ⟨d, hd, hexchanged⟩ := hplus.of_blame hrefused
  exact ⟨⟨_, w, hproduct, hw, hopposed.equal (by decide)⟩, ⟨_, d, hrefused, hd, hexchanged⟩,
    _, t, hdouble, ht, hsame.equal (by decide)⟩

end Arithmetic

end QuantityCalculus
