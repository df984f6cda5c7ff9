import QuantityCalculus.Equation.Basic
import Mathlib.Logic.Relation

/-!
The parts of a tree, and the trees that stand in it at any depth.
-/
namespace QuantityCalculus.Equation

/-- The trees directly below the root, from left to right. -/
def parts : Equation → List Equation
  | .number _ | .reference _ | .missingOperand | .unreadable _ => []
  | .block a | .signed _ a | .missingSign a => [a]
  | .binary _ a b | .comparison _ a b | .missingOperator a b => [a, b]
  | .call _ arguments | .missingFunction arguments => arguments
  | .matrix rows => rows.flatten

theorem sizeOf_lt_of_mem_parts {e p : Equation} (h : p ∈ e.parts) : sizeOf p < sizeOf e := by
  cases e with
  | number | reference | missingOperand | unreadable => simp [parts] at h
  | block a | signed _ a | missingSign a =>
    obtain rfl : p = a := by simpa [parts] using h
    simp only [block.sizeOf_spec, signed.sizeOf_spec, missingSign.sizeOf_spec]
    omega
  | binary _ a b | comparison _ a b | missingOperator a b =>
    simp only [binary.sizeOf_spec, comparison.sizeOf_spec, missingOperator.sizeOf_spec]
    rcases (by simpa [parts] using h : p = a ∨ p = b) with rfl | rfl
    · omega
    · omega
  | call _ arguments | missingFunction arguments =>
    have := List.sizeOf_lt_of_mem (show p ∈ arguments from h)
    simp only [call.sizeOf_spec, missingFunction.sizeOf_spec]
    omega
  | matrix rows =>
    obtain ⟨row, hr, hp⟩ := List.mem_flatten.1 h
    have := List.sizeOf_lt_of_mem hr
    have := List.sizeOf_lt_of_mem hp
    simp only [matrix.sizeOf_spec]
    omega

/-- What holds of a tree as soon as it holds of its parts holds of every tree. -/
theorem parts_induction {P : Equation → Prop} (step : ∀ e, (∀ p ∈ e.parts, P p) → P e)
    (e : Equation) : P e :=
  step e fun p _ => parts_induction step p
termination_by sizeOf e
decreasing_by exact sizeOf_lt_of_mem_parts ‹_›

/-- The tree `p` is `e` itself or stands somewhere in it. -/
def Within (p e : Equation) : Prop :=
  Relation.ReflTransGen (fun a b => b ∈ a.parts) e p

theorem Within.refl (e : Equation) : e.Within e :=
  Relation.ReflTransGen.refl

theorem Within.part {p q e : Equation} (h : q.Within e) (hp : p ∈ q.parts) : p.Within e :=
  Relation.ReflTransGen.tail h hp

theorem Within.trans {p q e : Equation} (h : p.Within q) (hq : q.Within e) : p.Within e :=
  Relation.ReflTransGen.trans hq h

theorem Within.cases_head {p e : Equation} (h : p.Within e) :
    p = e ∨ ∃ q ∈ e.parts, p.Within q := by
  rcases Relation.ReflTransGen.cases_head h with rfl | ⟨q, hq, hp⟩
  · exact .inl rfl
  · exact .inr ⟨q, hq, hp⟩

theorem within_of_mem_parts {p e : Equation} (h : p ∈ e.parts) : p.Within e :=
  (Within.refl e).part h

theorem within_iff {p e : Equation} : p.Within e ↔ p = e ∨ ∃ q ∈ e.parts, p.Within q := by
  refine ⟨Within.cases_head, ?_⟩
  rintro (rfl | ⟨q, hq, hp⟩)
  · exact .refl p
  · exact hp.trans (within_of_mem_parts hq)

@[simp] theorem within_number {p : Equation} (x : Float) : p.Within (.number x) ↔ p = .number x := by
  simp [within_iff (e := .number x), parts]

@[simp] theorem within_reference {p : Equation} (name : String) :
    p.Within (.reference name) ↔ p = .reference name := by
  simp [within_iff (e := .reference name), parts]

@[simp] theorem within_unreadable {p : Equation} (token : Unreadable) :
    p.Within (.unreadable token) ↔ p = .unreadable token := by
  simp [within_iff (e := .unreadable token), parts]

@[simp] theorem within_call {p : Equation} (name : String) (arguments : List Equation) :
    p.Within (.call name arguments) ↔
      p = .call name arguments ∨ ∃ q ∈ arguments, p.Within q :=
  within_iff

end QuantityCalculus.Equation
