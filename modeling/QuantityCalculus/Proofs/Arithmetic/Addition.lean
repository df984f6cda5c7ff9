import QuantityCalculus.Proofs.Arithmetic.Units
import QuantityCalculus.Proofs.Matrix

/-!
Which values can be added. They have to be in one unit and, if both are matrices, of one shape; a
number is added to every cell of a matrix, so that the sum is a matrix if either of them is.
-/
namespace QuantityCalculus

/-- The values are in one unit, and of one shape if both are matrices. -/
structure Value.Addable (a b : Value) : Prop where
  units : a.units.sameUnit b.units = true
  shapes : ∀ p q, a.quantity.shape? = some p → b.quantity.shape? = some q → p = q

/-- The causes for which an addition is refused. -/
def Cause.RefusesAddition (cause : Cause) : Prop :=
  (∃ u v, cause = .unlikeUnits u v) ∨ ∃ p q, cause = .unlikeShapes p q

namespace Arithmetic

variable {site : Equation} {p q r : Quantity} {a b v : Value} {stop : Stop} {shape : Shape}

theorem shape?_of_sum (h : sum site p q = .ok r) :
    r.shape? = some shape ↔ p.shape? = some shape ∨ q.shape? = some shape := by
  unfold sum at h
  split at h
  · obtain rfl := Except.ok.inj h
    simp [Quantity.shape?]
  · obtain rfl := Except.ok.inj h
    simp [Quantity.shape?, Matrix.shape, Matrix.map]
  · obtain rfl := Except.ok.inj h
    simp [Quantity.shape?, Matrix.shape, Matrix.map]
  · rename_i m n
    split at h
    · rename_i hshape
      obtain ⟨result, hr, h⟩ := Outcome.bind_eq_ok.1 h
      obtain rfl := Outcome.pure_eq_ok.1 h
      have hresult : result.shape = m.shape := Matrix.shape_zipWith? (Outcome.expect_eq_ok.1 hr)
      simp [Quantity.shape?, hresult, ← hshape]
    · exact absurd h Outcome.blame_ne_ok

theorem sum_eq_error (h : sum site p q = .error stop) : ∃ s t, p.shape? = some s ∧
    q.shape? = some t ∧ s ≠ t ∧ stop = .fault ⟨.unlikeShapes s t, site⟩ := by
  unfold sum at h
  split at h
  · cases h
  · cases h
  · cases h
  · rename_i m n
    split at h
    · rename_i hshape
      obtain ⟨result, hr⟩ := Matrix.exists_zipWith? hshape fun x y => x + y
      simp [hr, Outcome.expect] at h
    · rename_i hshape
      exact ⟨m.shape, n.shape, rfl, rfl, hshape, Outcome.blame_eq_error.1 h⟩

theorem shapes_of_sum (h : sum site p q = .ok r) {s t : Shape} (hs : p.shape? = some s)
    (ht : q.shape? = some t) : s = t := by
  have hfirst : r.shape? = some s := (shape?_of_sum h).2 (.inl hs)
  have hsecond : r.shape? = some t := (shape?_of_sum h).2 (.inr ht)
  exact Option.some.inj (hfirst.symm.trans hsecond)

theorem plus_eq_ok : plus site a b = .ok v ↔ a.units.sameUnit b.units = true ∧
    ∃ q, sum site a.quantity b.quantity = .ok q ∧ v = .ofParts a.units q := by
  rw [plus, join_eq_ok]
  constructor
  · rintro ⟨u, q, hu, hq, rfl⟩
    obtain ⟨hsame, rfl⟩ := commonUnit_eq_ok.1 hu
    obtain ⟨q', hsum, hq⟩ := Outcome.map_eq_ok.1 hq
    obtain rfl := Option.some.inj hq
    exact ⟨hsame, q', hsum, rfl⟩
  · rintro ⟨hsame, q, hsum, rfl⟩
    exact ⟨a.units, q, commonUnit_eq_ok.2 ⟨hsame, rfl⟩, Outcome.map_eq_ok.2 ⟨q, hsum, rfl⟩, rfl⟩

theorem addable_of_plus (h : plus site a b = .ok v) : a.Addable b := by
  obtain ⟨hsame, q, hsum, -⟩ := plus_eq_ok.1 h
  exact ⟨hsame, fun _ _ => shapes_of_sum hsum⟩

theorem shape?_of_plus (h : plus site a b = .ok v) : v.quantity.shape? = some shape ↔
    a.quantity.shape? = some shape ∨ b.quantity.shape? = some shape := by
  obtain ⟨-, q, hsum, rfl⟩ := plus_eq_ok.1 h
  rw [Value.quantity_ofParts]
  exact shape?_of_sum hsum

/-- An addition is refused to values that cannot be added, and to no others. -/
theorem plus_eq_error (h : plus site a b = .error stop) : ¬ a.Addable b ∧
    ∃ cause : Cause, cause.RefusesAddition ∧ stop = .fault ⟨cause, site⟩ := by
  rw [plus, join, Outcome.bind_eq_error] at h
  rcases h with h | ⟨u, -, h⟩
  · unfold commonUnit at h
    split at h
    · cases h
    · rename_i hsame
      exact ⟨fun hab => hsame hab.units, _, .inl ⟨_, _, rfl⟩, Outcome.blame_eq_error.1 h⟩
  · rcases Outcome.bind_eq_error.1 h with h | ⟨q, hq, h⟩
    · obtain ⟨s, t, hs, ht, hne, rfl⟩ := sum_eq_error (Outcome.map_eq_error.1 h)
      exact ⟨fun hab => hne (hab.shapes s t hs ht), _, .inr ⟨s, t, rfl⟩, rfl⟩
    · obtain ⟨q', -, rfl⟩ := Outcome.map_eq_ok.1 hq
      cases h

end Arithmetic

end QuantityCalculus
