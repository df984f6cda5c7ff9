import QuantityCalculus.Proofs.Arithmetic.Grounds
import QuantityCalculus.Proofs.Outcome
import QuantityCalculus.Proofs.Value.WellFormed

/-!
How the operators end. A stop is a fault at the operator on grounds that the operands bear out; with
sound operands there is no other stop, and the result is sound as well.
-/
namespace QuantityCalculus

/-- A fault at the site for which there are grounds or, unless all is `sound`, a defect. -/
def Stop.IsFrom (site : Equation) (grounds : Cause → Prop) (sound : Prop) : Stop → Prop
  | .fault f => f.site = site ∧ grounds f.cause
  | .defect _ => ¬ sound

/-- A fault of the equation itself, none that the checks before it rule out. -/
def Stop.Genuine : Stop → Prop
  | .fault f => ∀ operator left right, f.cause ≠ .operandKinds operator left right
  | .defect _ => False

variable {α : Type} {site : Equation} {grounds : Cause → Prop} {sound : Prop}

theorem Outcome.expect_ends {P : α → Prop} {defect : Defect} {x : Option α}
    (h : sound → ∃ a, x = some a ∧ P a) :
    (expect defect x).Ends (fun a => sound → P a) (Stop.IsFrom site grounds sound) := by
  constructor
  · intro a ha hs
    obtain ⟨b, hb, hp⟩ := h hs
    obtain rfl : b = a := Option.some.inj (hb.symm.trans (expect_eq_ok.1 ha))
    exact hp
  · intro stop he
    obtain ⟨hn, rfl⟩ := expect_eq_error.1 he
    intro hs
    obtain ⟨a, ha, -⟩ := h hs
    simp [ha] at hn

namespace Arithmetic

variable {m n : Matrix} {p q : Quantity} {a b : Value}

theorem scalarProduct_ends (hm : sound → m.WellFormed) (hn : sound → n.WellFormed)
    (hg : m.rows ≠ n.rows → grounds (.scalarProductLengths m.rows n.rows)) :
    (scalarProduct site m n).Ends (fun _ => sound → True) (Stop.IsFrom site grounds sound) := by
  unfold scalarProduct
  split
  · apply Outcome.expect_ends (P := fun _ => True)
    intro hs
    obtain ⟨xs, hx⟩ : ∃ xs, headProducts? m.cells n.cells = some xs := by
      apply Lists.exists_mapM_eq_some
      rintro ⟨r, s⟩ hrs
      obtain ⟨x, hx⟩ := (hm hs).exists_head? (List.of_mem_zip hrs).1
      obtain ⟨y, hy⟩ := (hn hs).exists_head? (List.of_mem_zip hrs).2
      exact ⟨x * y, by simp [hx, hy]⟩
    exact ⟨floatSum xs, by rw [hx]; rfl, trivial⟩
  · rename_i hr
    exact Outcome.ends_blame ⟨rfl, hg hr⟩

theorem vectorProduct_ends (hm : sound → m.WellFormed) (hn : sound → n.WellFormed)
    (hg : ¬ (m.rows = 3 ∧ n.rows = 3) → grounds (.vectorProductLengths m.rows n.rows)) :
    (vectorProduct site m n).Ends (fun r => sound → r.WellFormed)
      (Stop.IsFrom site grounds sound) := by
  unfold vectorProduct
  split
  · rename_i hr
    apply Outcome.expect_ends
    intro hs
    have hcells (row : Nat) : ∃ x, component? m n row = some x := by
      have hi : (row + 1) % 3 < 3 := Nat.mod_lt _ (by decide)
      have hj : (row + 2) % 3 < 3 := Nat.mod_lt _ (by decide)
      have hmc : 0 < m.cols := (hm hs).2.1
      have hnc : 0 < n.cols := (hn hs).2.1
      obtain ⟨x, hx⟩ := (hm hs).exists_cell? (Nat.lt_of_lt_of_eq hi hr.1.symm) hmc
      obtain ⟨y, hy⟩ := (hn hs).exists_cell? (Nat.lt_of_lt_of_eq hj hr.2.symm) hnc
      obtain ⟨z, hz⟩ := (hm hs).exists_cell? (Nat.lt_of_lt_of_eq hj hr.1.symm) hmc
      obtain ⟨w, hw⟩ := (hn hs).exists_cell? (Nat.lt_of_lt_of_eq hi hr.2.symm) hnc
      exact ⟨x * y - z * w, by simp [component?, hx, hy, hz, hw]⟩
    obtain ⟨r, hr⟩ : ∃ r, Matrix.tabulate? 3 1 (fun row _ => component? m n row) = some r :=
      Matrix.exists_tabulate? fun row _ _ _ => hcells row
    exact ⟨r, hr, Matrix.wellFormed_of_tabulate? (by decide) (by decide) hr⟩
  · rename_i hr
    exact Outcome.ends_blame ⟨rfl, hg hr⟩

theorem matrixProduct_ends (hm : sound → m.WellFormed) (hn : sound → n.WellFormed)
    (hg : m.cols ≠ n.rows → grounds (.matrixProductShapes m.shape n.shape)) :
    (matrixProduct site m n).Ends (fun r => sound → r.WellFormed)
      (Stop.IsFrom site grounds sound) := by
  unfold matrixProduct
  split
  · rename_i hcr
    apply Outcome.expect_ends
    intro hs
    have hcells (row col : Nat) (hr : row < m.rows) (hc : col < n.cols) :
        ∃ x, rowByColumn? m n row col = some x := by
      obtain ⟨xs, hx⟩ : ∃ xs, (List.range m.cols).mapM (fun k => do
          return (← m.cell? row k) * (← n.cell? k col)) = some xs := by
        apply Lists.exists_mapM_eq_some
        intro k hk
        have hk : k < m.cols := List.mem_range.1 hk
        obtain ⟨x, hx⟩ := (hm hs).exists_cell? hr hk
        obtain ⟨y, hy⟩ := (hn hs).exists_cell? (hcr ▸ hk) hc
        exact ⟨x * y, by simp [hx, hy]⟩
      exact ⟨floatSum xs, by rw [rowByColumn?, hx]; rfl⟩
    obtain ⟨r, hr⟩ := Matrix.exists_tabulate? hcells
    exact ⟨r, hr, Matrix.wellFormed_of_tabulate? (hm hs).1 (hn hs).2.1 hr⟩
  · rename_i hcr
    exact Outcome.ends_blame ⟨rfl, hg hcr⟩

theorem sum_ends (hp : sound → p.WellFormed) (hq : sound → q.WellFormed)
    (hg : ∀ r t, p.shape? = some r → q.shape? = some t → r ≠ t → grounds (.unlikeShapes r t)) :
    (sum site p q).Ends (fun r => sound → r.WellFormed) (Stop.IsFrom site grounds sound) := by
  unfold sum
  split
  · exact Outcome.ends_ok fun _ => trivial
  · exact Outcome.ends_ok fun hs => (hq hs).map _
  · exact Outcome.ends_ok fun hs => (hp hs).map _
  · rename_i m n
    split
    · rename_i hshape
      have hsum : (Outcome.expect .shapeMismatch (m.zipWith? n fun x y => x + y)).Ends
          (fun r => sound → r.WellFormed) (Stop.IsFrom site grounds sound) := by
        apply Outcome.expect_ends
        intro hs
        obtain ⟨r, hr⟩ := Matrix.exists_zipWith? hshape fun x y => x + y
        exact ⟨r, hr, (hp hs).zipWith? (hq hs) hr⟩
      exact hsum.bind fun r hr => Outcome.ends_ok hr
    · rename_i hshape
      exact Outcome.ends_blame ⟨rfl, hg _ _ rfl rfl hshape⟩

theorem columnProduct_ends (rule : VectorRule) (hm : sound → m.WellFormed)
    (hn : sound → n.WellFormed) (ha : a.quantity = .matrix m) (hb : b.quantity = .matrix n)
    (hc : m.cols = 1) (hd : n.cols = 1) :
    (columnProduct site rule m n).Ends (fun r => sound → r.WellFormed)
      (Stop.IsFrom site (Grounds rule.operator a b) sound) := by
  have hp : a.quantity.shape? = some ⟨m.rows, 1⟩ := by rw [ha, Quantity.shape?, Matrix.shape, hc]
  have hq : b.quantity.shape? = some ⟨n.rows, 1⟩ := by rw [hb, Quantity.shape?, Matrix.shape, hd]
  cases rule with
  | ambiguous => exact Outcome.ends_blame ⟨rfl, rfl, _, _, hp, hq⟩
  | scalar =>
    have hs : (scalarProduct site m n).Ends (fun _ => sound → True)
        (Stop.IsFrom site (Grounds .dot a b) sound) :=
      scalarProduct_ends hm hn fun hr => ⟨rfl, hp, hq, hr⟩
    exact hs.bind fun x hx => Outcome.ends_ok hx
  | vector =>
    have hs : (vectorProduct site m n).Ends (fun r => sound → r.WellFormed)
        (Stop.IsFrom site (Grounds .cross a b) sound) :=
      vectorProduct_ends hm hn fun hr => ⟨rfl, hp, hq, hr⟩
    exact hs.bind fun r hr => Outcome.ends_ok hr

theorem product_ends (rule : VectorRule) (ha : sound → a.WellFormed) (hb : sound → b.WellFormed) :
    (product site rule a.quantity b.quantity).Ends (fun r => sound → r.WellFormed)
      (Stop.IsFrom site (Grounds rule.operator a b) sound) := by
  have hp : sound → a.quantity.WellFormed := fun hs => (ha hs).quantity
  have hq : sound → b.quantity.WellFormed := fun hs => (hb hs).quantity
  cases hm : a.quantity with
  | number x =>
    cases hn : b.quantity with
    | number y => exact Outcome.ends_ok fun _ => trivial
    | matrix n =>
      rw [hn] at hq
      exact Outcome.ends_ok fun hs => (hq hs).map _
  | matrix m =>
    rw [hm] at hp
    cases hn : b.quantity with
    | number y => exact Outcome.ends_ok fun hs => (hp hs).map _
    | matrix n =>
      rw [hn] at hq
      rw [product]
      split
      · rename_i hc
        obtain ⟨hc, hd⟩ : m.cols = 1 ∧ n.cols = 1 := by simpa [Matrix.isColumn] using hc
        exact columnProduct_ends rule hp hq hm hn hc hd
      · rename_i hc
        have hc : ¬ (m.cols = 1 ∧ n.cols = 1) := by simpa [Matrix.isColumn] using hc
        have hr : a.quantity.shape? = some m.shape := by rw [hm]; rfl
        have ht : b.quantity.shape? = some n.shape := by rw [hn]; rfl
        have hs : (matrixProduct site m n).Ends (fun r => sound → r.WellFormed)
            (Stop.IsFrom site (Grounds rule.operator a b) sound) :=
          matrixProduct_ends hp hq fun hne => ⟨rule.isProduct, hr, ht, hne, hc⟩
        exact hs.bind fun r hr => Outcome.ends_ok hr

theorem quotient_ends (hp : sound → p.WellFormed) (hq : sound → q.WellFormed)
    (hz : q.hasZero = true → grounds .zeroDivisor)
    (hm : p.kind = .matrix → q.kind = .matrix → grounds .matrixDivisor) :
    (quotient site p q).Ends (fun r => sound → r.WellFormed) (Stop.IsFrom site grounds sound) := by
  unfold quotient
  split
  · exact Outcome.ends_blame ⟨rfl, hm rfl rfl⟩
  · split
    · rename_i hy
      exact Outcome.ends_blame ⟨rfl, hz hy⟩
    · exact Outcome.ends_ok fun _ => trivial
  · split
    · rename_i hy
      exact Outcome.ends_blame ⟨rfl, hz hy⟩
    · exact Outcome.ends_ok fun hs => (hp hs).map _
  · split
    · rename_i hn
      exact Outcome.ends_blame ⟨rfl, hz hn⟩
    · exact Outcome.ends_ok fun hs => (hq hs).map _

theorem raise?_eq (p : Quantity) (y : Float) : ∃ r, raise? p (.number y) = some r ∧
    (p.WellFormed → r.WellFormed) := by
  cases p with
  | number x => exact ⟨_, rfl, id⟩
  | matrix m => exact ⟨_, rfl, fun h => h.map _⟩

theorem commonUnit_ends {u v : CompoundUnit} (h : sound → u.ZeroFree)
    (hg : u.sameUnit v = false → grounds (.unlikeUnits u v)) :
    (commonUnit site u v).Ends (fun w => sound → w.ZeroFree) (Stop.IsFrom site grounds sound) := by
  unfold commonUnit
  split
  · exact Outcome.ends_ok h
  · rename_i hu
    exact Outcome.ends_blame ⟨rfl, hg (Bool.eq_false_iff.2 hu)⟩

theorem unitInRange_ends {u : CompoundUnit} {x : Option CompoundUnit}
    (h : ∀ w, x = some w → w.ZeroFree) (hg : x = none → grounds (.exponentRange u)) :
    (unitInRange site u x).Ends (fun w => sound → w.ZeroFree)
      (Stop.IsFrom site grounds sound) := by
  cases x with
  | none => exact Outcome.ends_blame ⟨rfl, hg rfl⟩
  | some w => exact Outcome.ends_ok fun _ => h w rfl

/-- The operator has a rule for every two quantities that it gets as far as. -/
theorem join_ends {operator : BinaryOperator}
    {units : CompoundUnit → CompoundUnit → Outcome CompoundUnit}
    {quantities : Quantity → Quantity → Outcome (Option Quantity)}
    (hu : (units a.units b.units).Ends (fun w => sound → w.ZeroFree)
      (Stop.IsFrom site grounds sound))
    (hq : (quantities a.quantity b.quantity).Ends
      (fun q => ∃ r, q = some r ∧ (sound → r.WellFormed)) (Stop.IsFrom site grounds sound)) :
    (join operator site units quantities a b).Ends (fun v => sound → v.WellFormed)
      (Stop.IsFrom site grounds sound) := by
  apply hu.bind
  intro w hw
  apply hq.bind
  rintro _ ⟨r, rfl, hr⟩
  exact Outcome.ends_ok fun hs => Value.wellFormed_ofParts (hw hs) (hr hs)

theorem join_some_ends {operator : BinaryOperator}
    {units : CompoundUnit → CompoundUnit → Outcome CompoundUnit}
    {quantities : Quantity → Quantity → Outcome Quantity}
    (hu : (units a.units b.units).Ends (fun w => sound → w.ZeroFree)
      (Stop.IsFrom site grounds sound))
    (hq : (quantities a.quantity b.quantity).Ends (fun r => sound → r.WellFormed)
      (Stop.IsFrom site grounds sound)) :
    (join operator site units (fun p q => some <$> quantities p q) a b).Ends
      (fun v => sound → v.WellFormed) (Stop.IsFrom site grounds sound) :=
  join_ends hu (hq.map fun r hr => ⟨r, rfl, hr⟩)

variable {operator : BinaryOperator}

/-- Both addition and subtraction, whose right operand is negated. -/
theorem plus_ends (ho : operator.IsSum) (ha : sound → a.WellFormed) (hb : sound → b.WellFormed)
    {c : Value} (hu : b.units = c.units) (hs : b.quantity.shape? = c.quantity.shape?) :
    (plus site a b).Ends (fun v => sound → v.WellFormed)
      (Stop.IsFrom site (Grounds operator a c) sound) := by
  apply join_some_ends
  · refine commonUnit_ends (fun hs => (ha hs).units) ?_
    intro hne
    exact ⟨ho, rfl, hu, hne⟩
  · refine sum_ends (fun hs => (ha hs).quantity) (fun hs => (hb hs).quantity) ?_
    intro r t hr ht hne
    exact ⟨ho, hr, hs ▸ ht, hne⟩

theorem multiply_ends (rule : VectorRule) (ha : sound → a.WellFormed) (hb : sound → b.WellFormed) :
    (multiply site rule a b).Ends (fun v => sound → v.WellFormed)
      (Stop.IsFrom site (Grounds rule.operator a b) sound) := by
  apply join_some_ends
  · refine unitInRange_ends (fun w => CompoundUnit.zeroFree_of_combine?) ?_
    intro hn
    exact ⟨rfl, .inl ⟨rule.isProduct, hn⟩⟩
  · exact product_ends rule ha hb

theorem divide_ends (ho : operator.IsQuotient) (ha : sound → a.WellFormed)
    (hb : sound → b.WellFormed) :
    (divide site a b).Ends (fun v => sound → v.WellFormed)
      (Stop.IsFrom site (Grounds operator a b) sound) := by
  apply join_some_ends
  · refine unitInRange_ends (fun w => CompoundUnit.zeroFree_of_combine?) ?_
    intro hn
    exact ⟨rfl, .inr (.inl ⟨ho, hn⟩)⟩
  · refine quotient_ends (fun hs => (ha hs).quantity) (fun hs => (hb hs).quantity) ?_ ?_
    · intro hz
      exact ⟨ho, hz⟩
    · intro hp hq
      exact ⟨ho, hp, hq⟩

theorem power_ends (ha : sound → a.WellFormed) :
    (power site a b).Ends (fun v => sound → v.WellFormed)
      (Stop.IsFrom site (Grounds .power a b) sound) := by
  cases b with
  | number y =>
    unfold power
    apply join_ends
    · refine unitInRange_ends (fun w => CompoundUnit.zeroFree_of_power?) ?_
      intro hn
      exact ⟨rfl, .inr (.inr ⟨rfl, y, rfl, hn⟩)⟩
    · obtain ⟨r, hr, hw⟩ := raise?_eq a.quantity y
      exact Outcome.ends_ok ⟨r, hr, fun hs => hw (ha hs).quantity⟩
  | matrix m => exact Outcome.ends_blame ⟨rfl, rfl, rfl, by simp [Value.kind]⟩
  | measured u q => exact Outcome.ends_blame ⟨rfl, rfl, rfl, by simp [Value.kind]⟩

/-- An operator stops at its own node, on grounds that its operands bear out. Between well-formed
values it stops at none of its safeguards, and its value is well-formed. -/
theorem apply_ends (operator : BinaryOperator) (ha : sound → a.WellFormed)
    (hb : sound → b.WellFormed) :
    (apply operator site a b).Ends (fun v => sound → v.WellFormed)
      (Stop.IsFrom site (Grounds operator a b) sound) := by
  cases operator with
  | plus => exact plus_ends (.inl rfl) ha hb rfl rfl
  | minus =>
    exact plus_ends (.inr rfl) ha (fun hs => (hb hs).negate) b.units_negate b.shape?_negate
  | plusMinus => exact Outcome.ends_blame ⟨rfl, rfl⟩
  | juxtaposition => exact multiply_ends .ambiguous ha hb
  | dot => exact multiply_ends .scalar ha hb
  | cross => exact multiply_ends .vector ha hb
  | fraction => exact divide_ends (.inl rfl) ha hb
  | inlineDivision => exact divide_ends (.inr rfl) ha hb
  | power => exact power_ends ha

theorem wellFormed_of_apply {v : Value} (ha : a.WellFormed) (hb : b.WellFormed)
    (h : apply operator site a b = .ok v) : v.WellFormed :=
  (apply_ends operator (fun _ : True => ha) fun _ => hb).1 v h trivial

theorem site_of_apply {f : Fault} (h : apply operator site a b = .error (.fault f)) :
    f.site = site :=
  ((apply_ends operator False.elim False.elim).2 _ h).1

theorem grounds_of_apply {f : Fault} (h : apply operator site a b = .error (.fault f)) :
    Grounds operator a b f.cause :=
  ((apply_ends operator False.elim False.elim).2 _ h).2

theorem genuine_of_apply {stop : Stop} (ha : a.WellFormed) (hb : b.WellFormed)
    (h : apply operator site a b = .error stop) : stop.Genuine := by
  cases stop with
  | fault f => exact (grounds_of_apply h).ne_operandKinds
  | defect d => exact (apply_ends operator (fun _ : True => ha) fun _ => hb).2 _ h trivial

end Arithmetic

end QuantityCalculus
