import QuantityCalculus.Proofs.Arithmetic.Dimension
import QuantityCalculus.Proofs.Evaluation.Coincidence
import QuantityCalculus.Proofs.Evaluation.Invariance

/-!
Dimensions do not depend on magnitudes. A tree without calls is evaluated in two scopes whose
values differ in their numbers only; unless one evaluation divides by zero, they find the same
unit and shape, or the same fault.
-/
namespace QuantityCalculus

namespace Equation

def CallFree (e : Equation) : Prop :=
  ∀ name arguments, ¬ (Equation.call name arguments).Within e

/-- No variable stands in an exponent. -/
def FixedExponents (e : Equation) : Prop :=
  ∀ left right, (Equation.binary .power left right).Within e →
    ∀ name, ¬ (Equation.reference name).Within right

variable {e p : Equation}

theorem CallFree.part (h : e.CallFree) (hp : p ∈ e.parts) : p.CallFree := by
  intro name arguments hc
  exact h name arguments (hc.trans (within_of_mem_parts hp))

theorem FixedExponents.part (h : e.FixedExponents) (hp : p ∈ e.parts) : p.FixedExponents := by
  intro left right hr
  exact h left right (hr.trans (within_of_mem_parts hp))

theorem Free.within {functions : Bindings Callable} {name : String} (h : e.Free functions name) :
    (Equation.reference name).Within e := by
  induction h with
  | reference => exact .refl _
  | part _ hp _ ih => exact ih.trans (within_of_mem_parts hp)
  | argument _ hp _ _ ih => exact ih.trans (within_of_mem_parts (List.mem_of_getElem? hp))

end Equation

namespace Scope

variable {s t : Scope} {e : Equation}

/-- The scopes bind the same names, each of them to values that differ in their numbers only. -/
structure SameDimensions (s t : Scope) : Prop where
  limit : t.limit = s.limit
  depth : s.limit = none ∨ t.depth = s.depth
  values : ∀ name, Option.Rel Value.SameButNumbers (s.value? name) (t.value? name)

theorem SameDimensions.deeper (h : s.SameDimensions t) : s.deeper.SameDimensions t.deeper :=
  ⟨h.limit, h.depth.imp_right (congrArg (· + 1)), h.values⟩

section Cells

end Cells

/-- Units that compare equal are not enough: the common denominator of the product fits only if the
exponent of the length is stored in lowest terms. -/
example :
    let scope (u : CompoundUnit) : Scope := ⟨.ofList [("x", .measured u (.number 1.0)),
      ("y", .measured ⟨[("m", ⟨1, 3⟩)]⟩ (.number 1.0))], .empty, none, 0⟩
    let u : CompoundUnit := ⟨[("m", ⟨4611686018427387904, 4611686018427387904⟩)]⟩
    let product : Equation := .binary .dot (.reference "x") (.reference "y")
    u.sameUnit (.base "m") = true ∧
      (scope u).evaluate product = .error (.fault ⟨.exponentRange u, product⟩) ∧
      (scope (.base "m")).evaluate product =
        .ok (.measured ⟨[("m", ⟨4, 3⟩)]⟩ (.number 1.0)) :=
  ⟨by decide, rfl, rfl⟩

end Scope

end QuantityCalculus
