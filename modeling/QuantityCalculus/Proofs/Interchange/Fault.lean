import QuantityCalculus.Interchange.Fault
import QuantityCalculus.Proofs.Interchange.Equation
import QuantityCalculus.Proofs.Interchange.Value

/-!
Faults are read back from their documents as they were written.
-/
namespace QuantityCalculus

open Datum

namespace Arity

def Exchangeable (a : Arity) : Prop :=
  IsSize a.least ∧ ∀ n ∈ a.most, IsSize n

instance (a : Arity) : Decidable a.Exchangeable :=
  inferInstanceAs (Decidable (_ ∧ _))

theorem ofDatum?_record (least most : Datum) :
    ofDatum? (.record [("min", least), ("max", most)]) =
      (do
        let most ← optionalSize? (some most)
        return ⟨← least.size?, most⟩) := by
  simp [ofDatum?]

theorem ofDatum?_toDatum {a : Arity} (h : a.Exchangeable) : ofDatum? a.toDatum = some a := by
  rw [toDatum, ofDatum?_record, size?_ofSize h.1, optionalSize?_ofOptionalSize h.2]
  rfl

end Arity

namespace Cause

def Exchangeable : Cause → Prop
  | .argumentCount _ arity found => arity.Exchangeable ∧ IsSize found
  | .unlikeUnits left right => left.Exchangeable ∧ right.Exchangeable
  | .unlikeShapes left right => left.Exchangeable ∧ right.Exchangeable
  | .scalarProductLengths left right => IsSize left ∧ IsSize right
  | .vectorProductLengths left right => IsSize left ∧ IsSize right
  | .matrixProductShapes left right => left.Exchangeable ∧ right.Exchangeable
  | .exponentRange units => units.Exchangeable
  | .cellUnits expected found => expected.Exchangeable ∧ found.Exchangeable
  | .unreadable token => token.Exchangeable
  | .depth limit => IsSize limit
  | _ => True

section Details

/-! What the details of a cause are read as, whatever they are. -/

theorem ofDatum?_argumentCount (name : String) (arity found : Datum) :
    ofDatum? (variant "FunctionArgLength"
        [("name", .text name), ("arity", arity), ("found", found)]) =
      (do return .argumentCount name (← Arity.ofDatum? arity) (← found.size?)) :=
  rfl

theorem ofDatum?_unlikeUnits (a b : Datum) :
    ofDatum? (variant "PlusDifferentUnits" [("a", a), ("b", b)]) =
      (do return .unlikeUnits (← CompoundUnit.ofDatum? a) (← CompoundUnit.ofDatum? b)) :=
  rfl

theorem ofDatum?_unlikeShapes (a b : Datum) :
    ofDatum? (variant "PlusMatrixMismatch" [("a", a), ("b", b)]) =
      (do return .unlikeShapes (← Shape.ofDatum? a) (← Shape.ofDatum? b)) :=
  rfl

theorem ofDatum?_scalarProductLengths (a b : Datum) :
    ofDatum? (variant "ScalarProductUnbalanced" [("a", a), ("b", b)]) =
      (do return .scalarProductLengths (← a.size?) (← b.size?)) :=
  rfl

theorem ofDatum?_vectorProductLengths (a b : Datum) :
    ofDatum? (variant "VectorProduct3VectorOnly" [("a", a), ("b", b)]) =
      (do return .vectorProductLengths (← a.size?) (← b.size?)) :=
  rfl

theorem ofDatum?_matrixProductShapes (a b : Datum) :
    ofDatum? (variant "MatrixProductMatrixMismatch" [("a", a), ("b", b)]) =
      (do return .matrixProductShapes (← Shape.ofDatum? a) (← Shape.ofDatum? b)) :=
  rfl

theorem ofDatum?_exponentRange (units : Datum) :
    ofDatum? (variant "UnitExponentRange" [("units", units)]) =
      (do return .exponentRange (← CompoundUnit.ofDatum? units)) :=
  rfl

theorem ofDatum?_cellUnits (expected found : Datum) :
    ofDatum? (variant "MatrixDifferentUnits" [("expected", expected), ("found", found)]) =
      (do return .cellUnits (← CompoundUnit.ofDatum? expected) (← CompoundUnit.ofDatum? found)) :=
  rfl

theorem ofDatum?_depth (limit : Datum) :
    ofDatum? (variant "DepthExceeded" [("limit", limit)]) =
      (do return .depth (← limit.size?)) :=
  rfl

theorem ofDatum?_exponentKind (found : Datum) :
    ofDatum? (variant "PowerUnitlessNumberExponent" [("found", found)]) =
      (do return .exponentKind (← Kind.ofDatum? found)) :=
  rfl

theorem ofDatum?_operandKinds (operator left right : Datum) :
    ofDatum? (variant "OperatorInvalidArguments"
        [("operator", operator), ("a", left), ("b", right)]) =
      (do
        return .operandKinds (← BinaryOperator.ofDatum? operator) (← Kind.ofDatum? left)
          (← Kind.ofDatum? right)) :=
  rfl

theorem ofDatum?_comparison (relation : Datum) :
    ofDatum? (variant "NoComparison" [("operator", relation)]) =
      (do return .comparison (← Relation.ofDatum? relation)) :=
  rfl

theorem ofDatum?_unreadable (fields : List (String × Datum)) :
    ofDatum? (.record [("InvalidEquation", .record fields)]) =
      (Unreadable.ofDatum? (.record fields)).map .unreadable := by
  simp [ofDatum?]

end Details

theorem ofDatum?_toDatum {cause : Cause} (h : cause.Exchangeable) :
    ofDatum? cause.toDatum = some cause := by
  cases cause with
  | unknownFunction | numbersOnly | negativeRadicand | rootIndex | evenRootOfNegative
  | seriesVariable | seriesStart | seriesEnd | unknownVariable | plusMinus | ambiguousVectors
  | zeroDivisor | matrixDivisor | nestedMatrix | malformedMatrix | incomplete => rfl
  | exponentKind found => simp [toDatum, ofDatum?_exponentKind, Kind.ofDatum?]
  | operandKinds operator left right =>
    simp [toDatum, ofDatum?_operandKinds, BinaryOperator.ofDatum?, Kind.ofDatum?]
  | comparison relation => simp [toDatum, ofDatum?_comparison, Relation.ofDatum?]
  | argumentCount name arity found =>
    rw [toDatum, ofDatum?_argumentCount, Arity.ofDatum?_toDatum h.1, size?_ofSize h.2]
    rfl
  | unlikeUnits left right =>
    rw [toDatum, ofDatum?_unlikeUnits, CompoundUnit.ofDatum?_toDatum h.1,
      CompoundUnit.ofDatum?_toDatum h.2]
    rfl
  | unlikeShapes left right =>
    rw [toDatum, ofDatum?_unlikeShapes, Shape.ofDatum?_toDatum h.1, Shape.ofDatum?_toDatum h.2]
    rfl
  | scalarProductLengths left right =>
    rw [toDatum, ofDatum?_scalarProductLengths, size?_ofSize h.1, size?_ofSize h.2]
    rfl
  | vectorProductLengths left right =>
    rw [toDatum, ofDatum?_vectorProductLengths, size?_ofSize h.1, size?_ofSize h.2]
    rfl
  | matrixProductShapes left right =>
    rw [toDatum, ofDatum?_matrixProductShapes, Shape.ofDatum?_toDatum h.1,
      Shape.ofDatum?_toDatum h.2]
    rfl
  | exponentRange units =>
    rw [toDatum, ofDatum?_exponentRange, CompoundUnit.ofDatum?_toDatum h]
    rfl
  | cellUnits expected found =>
    rw [toDatum, ofDatum?_cellUnits, CompoundUnit.ofDatum?_toDatum h.1,
      CompoundUnit.ofDatum?_toDatum h.2]
    rfl
  | unreadable token =>
    have ht := Unreadable.ofDatum?_toDatum h
    rw [Unreadable.toDatum] at ht
    rw [toDatum, Unreadable.toDatum, ofDatum?_unreadable, ht]
    rfl
  | depth limit =>
    rw [toDatum, ofDatum?_depth, size?_ofSize h]
    rfl

end Cause

namespace Fault

def Exchangeable (f : Fault) : Prop :=
  f.cause.Exchangeable ∧ f.site.Exchangeable

theorem ofDatum?_record (cause site : Datum) :
    ofDatum? (.record [("kind", cause), ("node", site)]) =
      (do return ⟨← Cause.ofDatum? cause, ← Equation.ofDatum? site⟩) := by
  simp [ofDatum?]

theorem ofDatum?_toDatum {f : Fault} (h : f.Exchangeable) : ofDatum? f.toDatum = some f := by
  rw [toDatum, ofDatum?_record, Cause.ofDatum?_toDatum h.1, Equation.ofDatum?_toDatum h.2]
  rfl

end Fault

/-- Every equation, cause, fault, value and unit whose numbers can be written down is read back from
its document unchanged. -/
theorem documents_read_back :
    (∀ e : Equation, e.Exchangeable → Equation.ofDatum? e.toDatum = some e) ∧
    (∀ cause : Cause, cause.Exchangeable → Cause.ofDatum? cause.toDatum = some cause) ∧
    (∀ f : Fault, f.Exchangeable → Fault.ofDatum? f.toDatum = some f) ∧
    (∀ v : Value, v.Exchangeable → Value.ofDatum? v.toDatum = some v) ∧
    ∀ u : CompoundUnit, u.Canonical → u.InRange → CompoundUnit.ofDatum? u.toDatum = some u := by
  refine ⟨?_, ?_, ?_, ?_, ?_⟩
  · intro e h
    exact Equation.ofDatum?_toDatum h
  · intro cause h
    exact Cause.ofDatum?_toDatum h
  · intro f h
    exact Fault.ofDatum?_toDatum h
  · intro v h
    exact Value.ofDatum?_toDatum h
  · intro u hu hr
    exact CompoundUnit.ofDatum?_toDatum (hu.exchangeable hr)

/-- A call with an argument that could not be read, found to have too few of them. -/
theorem documents_read_back_sample :
    let f : Fault := ⟨.argumentCount "share" ⟨2, some 2⟩ 1,
      .call "share" [.number 1.5, .unreadable ⟨"unexpected-token", 9, 10⟩]⟩
    let u : CompoundUnit := ⟨[("m", ⟨1, 2⟩), ("s", ⟨-2, 1⟩)]⟩
    Fault.ofDatum? f.toDatum = some f ∧
      Value.ofDatum? (Value.measured u (.number 1.5)).toDatum = some (.measured u (.number 1.5)) ∧
      CompoundUnit.ofDatum? u.toDatum = some u := by
  intro f u
  have hf : f.Exchangeable := by
    refine ⟨⟨by decide, by decide⟩, ?_, ?_⟩
    · intro x hx
      obtain rfl : x = 1.5 := by simpa [f] using hx
      rfl
    · intro token ht
      obtain rfl : token = ⟨"unexpected-token", 9, 10⟩ := by simpa [f] using ht
      decide
  have hu : u.Canonical := by decide
  have hr : u.InRange := by decide
  have h := documents_read_back
  exact ⟨h.2.2.1 f hf, h.2.2.2.1 _ ⟨hu.exchangeable hr, rfl⟩, h.2.2.2.2 u hu hr⟩

end QuantityCalculus
