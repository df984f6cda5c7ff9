import QuantityCalculus.Evaluation
import QuantityCalculus.Proofs.Arithmetic.Operator
import QuantityCalculus.Proofs.Interchange.Value

/-!
Values that are read from documents. Nothing is checked but the range of each number, so that the
sizes of a matrix may belie its cells and a measured value may have no unit.
-/
namespace QuantityCalculus

/-- A matrix is well-formed exactly if its cells alone would make it. -/
theorem Matrix.wellFormed_iff_ofRows? {m : Matrix} : m.WellFormed ↔ ofRows? m.cells = some m := by
  constructor
  · rintro ⟨hrows, hcols, hlength, hrow⟩
    obtain ⟨rows, cols, cells⟩ := m
    cases cells with
    | nil => exact absurd hrows (by rw [← hlength]; exact Nat.not_succ_le_zero 0)
    | cons row rest =>
      have hfirst : row.length = cols := hrow row List.mem_cons_self
      have hrest : rest.all (fun other => other.length = row.length) = true :=
        List.all_eq_true.2 fun other ho =>
          decide_eq_true ((hrow other (List.mem_cons_of_mem _ ho)).trans hfirst.symm)
      have hne : row.length ≠ 0 := by
        rw [hfirst]
        exact Nat.one_le_iff_ne_zero.1 hcols
      rw [ofRows?, if_pos ⟨hne, hrest⟩, hfirst, hlength]
  · intro h
    exact (wellFormed_of_ofRows? h).1

namespace Quantity

/-- The constructor of matrices makes the same matrix from the cells. -/
def IsBuilt : Quantity → Prop
  | .number _ => True
  | .matrix m => Matrix.ofRows? m.cells = some m

theorem wellFormed_iff_isBuilt {q : Quantity} : q.WellFormed ↔ q.IsBuilt := by
  cases q with
  | number x => exact Iff.rfl
  | matrix m => exact Matrix.wellFormed_iff_ofRows?

end Quantity

namespace Value

/-- The constructors make the value from its parts. -/
def IsBuilt (v : Value) : Prop :=
  v.quantity.IsBuilt ∧ ofParts v.units v.quantity = v

theorem wellFormed_iff_isBuilt {v : Value} (hu : v.units.ZeroFree) : v.WellFormed ↔ v.IsBuilt := by
  cases v with
  | number x => exact ⟨fun _ => ⟨trivial, rfl⟩, fun _ => trivial⟩
  | matrix m => exact Matrix.wellFormed_iff_ofRows?.trans ⟨fun h => ⟨h, rfl⟩, And.left⟩
  | measured units quantity =>
    have hunits : units.entries ≠ [] ↔ ofParts units quantity = .measured units quantity := by
      obtain ⟨entries⟩ := units
      cases entries <;> cases quantity <;> simp [ofParts, CompoundUnit.isDimensionless, Quantity.bare]
    rw [IsBuilt, ← Quantity.wellFormed_iff_isBuilt]
    constructor
    · rintro ⟨hne, -, hq⟩
      exact ⟨hq, hunits.1 hne⟩
    · rintro ⟨hq, hb⟩
      exact ⟨hunits.2 hb, hu, hq⟩

end Value

/-- A value is that of some document exactly if its numbers fit and its unit is in order, which is
all that is checked. It is well-formed exactly if the constructors make it from its parts, and then
no operator comes to a cell of it that is missing. -/
theorem value_read_unchecked (v : Value) :
    (v.quantity.Finite →
      ((∃ d, Value.ofDatum? d = some v) ↔ v.Exchangeable) ∧
        ((∃ d, Quantity.ofDatum? d = some v.quantity) ↔ v.quantity.Exchangeable)) ∧
    (v.quantity.WellFormed ↔ v.quantity.IsBuilt) ∧
    ∀ d, Value.ofDatum? d = some v →
      (v.WellFormed ↔ v.IsBuilt) ∧
        (v.IsBuilt → ∀ operator site w, w.WellFormed → ∀ defect,
          Arithmetic.apply operator site v w ≠ .error (.defect defect) ∧
            Arithmetic.apply operator site w v ≠ .error (.defect defect)) := by
  refine ⟨?_, Quantity.wellFormed_iff_isBuilt, ?_⟩
  · intro hf
    refine ⟨⟨?_, ?_⟩, ?_, ?_⟩
    · rintro ⟨d, h⟩
      have hv := Value.exchangeable_of_ofDatum? h
      exact ⟨hv.1, hv.2 hf⟩
    · intro h
      exact ⟨v.toDatum, Value.ofDatum?_toDatum h⟩
    · rintro ⟨d, h⟩
      exact Quantity.exchangeable_of_ofDatum? h hf
    · intro h
      exact ⟨v.quantity.toDatum, Quantity.ofDatum?_toDatum h⟩
  · intro d h
    have hiff : v.WellFormed ↔ v.IsBuilt :=
      Value.wellFormed_iff_isBuilt (Value.exchangeable_of_ofDatum? h).1.zeroFree
    refine ⟨hiff, ?_⟩
    intro hb operator site w hw defect
    have hv := hiff.2 hb
    exact ⟨Arithmetic.genuine_of_apply hv hw, Arithmetic.genuine_of_apply hw hv⟩

/-- A column of lengths. -/
theorem value_read_unchecked_sample :
    let v : Value := .measured ⟨[("m", ⟨1, 1⟩)]⟩ (.matrix ⟨2, 1, [[1.5], [-1.0]]⟩)
    (∃ d, Value.ofDatum? d = some v) ∧ v.WellFormed ∧
      ∀ site defect, Arithmetic.apply .cross site v v ≠ .error (.defect defect) := by
  intro v
  obtain ⟨hread, -, hsafe⟩ := value_read_unchecked v
  obtain ⟨d, hd⟩ := (hread (by decide)).1.2 (by decide)
  obtain ⟨hiff, hsafe⟩ := hsafe d hd
  have hbuilt : v.IsBuilt := ⟨rfl, rfl⟩
  have hv : v.WellFormed := hiff.2 hbuilt
  exact ⟨⟨d, hd⟩, hv, fun site defect => (hsafe hbuilt .cross site v hv defect).1⟩

/-- Three rows are announced and none of them follows, and a number is measured in no unit. -/
theorem malformed_values_read :
    let column : Value := .matrix ⟨3, 1, []⟩
    let unitless : Value := .measured .dimensionless (.number 5.0)
    Value.ofDatum? (.adjacent .matrix
        (.record [("rows", .integer 3), ("cols", .integer 1), ("cells", .list [])])) =
      some column ∧ ¬ column.WellFormed ∧
    Value.ofDatum? (.adjacent .unit
        (.record [("units", .record []), ("value", .adjacent .number (.integer 5))])) =
      some unitless ∧ ¬ unitless.WellFormed ∧
    (Scope.empty.bindValue "a" column).evaluate
        (.binary .cross (.reference "a") (.reference "a")) = .error (.defect .missingCell) := by
  refine ⟨rfl, by decide, rfl, by decide, rfl⟩

end QuantityCalculus
