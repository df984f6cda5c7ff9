import QuantityCalculus.Proofs.Arithmetic.Addition
import QuantityCalculus.Proofs.Builtin.Series

/-!
Sums of like terms. Only the running sum is ever compared with a term, but it keeps the unit of the
first term and is a matrix of the shape of whatever matrices there have been. So a sum exists
exactly when any two of its terms can be added.
-/
namespace QuantityCalculus.Series

variable {call : Call} {index : String} {term : Argument} {low high : Int} {v : Value}

/-- Any two terms from `low` to `high` that have values have values that can be added. -/
def LikeTerms (t : Int → Outcome Value) (low high : Int) : Prop :=
  ∀ i j, low ≤ i ∧ i ≤ high → low ≤ j ∧ j ≤ high → ∀ a b, t i = .ok a → t j = .ok b → a.Addable b

theorem units_of_between (hle : low ≤ high) (h : between call index term low high = .ok v)
    {a : Value} (ha : termAt call index term low = .ok a) : v.units = a.units := by
  refine between_rec (P := fun _ w => w.units = a.units) ?_ ?_ hle h
  · intro b hb
    obtain rfl := Except.ok.inj (ha.symm.trans hb)
    rfl
  · intro k sum t w _ hsum _ hw
    rw [Arithmetic.units_of_plus hw, hsum]

theorem shape?_of_between (hle : low ≤ high) (h : between call index term low high = .ok v)
    {shape : Shape} : v.quantity.shape? = some shape ↔ ∃ i, (low ≤ i ∧ i ≤ high) ∧ ∃ a,
      termAt call index term i = .ok a ∧ a.quantity.shape? = some shape := by
  refine between_rec (P := fun k w => w.quantity.shape? = some shape ↔ ∃ i, (low ≤ i ∧ i ≤ k) ∧ ∃ a,
    termAt call index term i = .ok a ∧ a.quantity.shape? = some shape) ?_ ?_ hle h
  · intro a ha
    constructor
    · intro hshape
      exact ⟨low, ⟨le_refl low, le_refl low⟩, a, ha, hshape⟩
    · rintro ⟨i, ⟨hl, hu⟩, b, hb, hshape⟩
      obtain rfl := le_antisymm hl hu
      obtain rfl := Except.ok.inj (ha.symm.trans hb)
      exact hshape
  · intro k sum t w hk hsum ht hw
    rw [Arithmetic.shape?_of_plus hw, hsum]
    constructor
    · rintro (⟨i, ⟨hl, hu⟩, hi⟩ | hshape)
      · exact ⟨i, ⟨hl, by omega⟩, hi⟩
      · exact ⟨k + 1, ⟨by omega, le_refl _⟩, t, ht, hshape⟩
    · rintro ⟨i, ⟨hl, hu⟩, a, ha, hshape⟩
      obtain hi | rfl : i ≤ k ∨ i = k + 1 := by omega
      · exact .inl ⟨i, ⟨hl, hi⟩, a, ha, hshape⟩
      · obtain rfl := Except.ok.inj (ht.symm.trans ha)
        exact .inr hshape

/-- Every term but the first has been added to the sum of those before it. -/
theorem addable_of_between (h : between call index term low high = .ok v) {k : Int}
    (hl : low < k) (hu : k ≤ high) {b : Value} (hb : termAt call index term k = .ok b) :
    ∃ sum, between call index term low (k - 1) = .ok sum ∧ sum.Addable b := by
  obtain ⟨w, hw⟩ := exists_between_of_between (by omega) hu h
  rw [between_last hl] at hw
  obtain ⟨sum, hsum, hw⟩ := Outcome.bind_eq_ok.1 hw
  obtain ⟨t, ht, hw⟩ := Outcome.bind_eq_ok.1 hw
  obtain rfl := Except.ok.inj (ht.symm.trans hb)
  exact ⟨sum, hsum, Arithmetic.addable_of_plus hw⟩

theorem likeTerms_of_between (h : between call index term low high = .ok v)
    (proper : ∀ a, termAt call index term low = .ok a → a.units.Proper) :
    LikeTerms (termAt call index term) low high := by
  -- The unit of the first term is that of every later one.
  have hunits {c b : Value} {k : Int} (hc : termAt call index term low = .ok c)
      (hk : low ≤ k ∧ k ≤ high) (hb : termAt call index term k = .ok b) :
      c.units.sameUnit b.units = true := by
    obtain rfl | hlt := eq_or_lt_of_le hk.1
    · obtain rfl := Except.ok.inj (hc.symm.trans hb)
      exact CompoundUnit.sameUnit_self _
    · obtain ⟨sum, hsum, hadd⟩ := addable_of_between h hlt hk.2 hb
      exact units_of_between (by omega) hsum hc ▸ hadd.units
  -- The later of two matrices was added to a sum that had the shape of the earlier one.
  have hshapes {i j : Int} {a b : Value} (hi : low ≤ i) (hij : i < j) (hj : j ≤ high)
      (ha : termAt call index term i = .ok a) (hb : termAt call index term j = .ok b)
      {p q : Shape} (hp : a.quantity.shape? = some p) (hq : b.quantity.shape? = some q) :
      p = q := by
    obtain ⟨sum, hsum, hadd⟩ := addable_of_between h (by omega) hj hb
    have hearlier := (shape?_of_between (by omega) hsum).2 ⟨i, ⟨hi, by omega⟩, a, ha, hp⟩
    exact hadd.shapes p q hearlier hq
  intro i j hi hj a b ha hb
  obtain ⟨c, hc⟩ := exists_termAt_of_between h (le_refl low) (hi.1.trans hi.2)
  constructor
  · have hac := CompoundUnit.sameUnit_comm a.units c.units ▸ hunits hc hi ha
    exact (proper c hc).sameUnit_trans hac (hunits hc hj hb)
  · intro p q hp hq
    rcases lt_trichotomy i j with hij | rfl | hji
    · exact hshapes hi.1 hij hj.2 ha hb hp hq
    · obtain rfl := Except.ok.inj (ha.symm.trans hb)
      exact Option.some.inj (hp.symm.trans hq)
    · exact (hshapes hj.1 hji hi.2 hb ha hq hp).symm

/-- Where all terms have values, only an addition can stop the sum, and only unlike terms do. -/
theorem between_eq_error_of_terms {stop : Stop} (hle : low ≤ high)
    (h : between call index term low high = .error stop)
    (terms : ∀ i, low ≤ i ∧ i ≤ high → ∃ a, termAt call index term i = .ok a) :
    ¬ LikeTerms (termAt call index term) low high ∧
      ∃ cause : Cause, cause.RefusesAddition ∧ stop = .fault ⟨cause, call.site⟩ := by
  obtain ⟨k, hl, hu, ⟨rfl, hk⟩ | ⟨hlt, sum, hsum, hk | ⟨b, hb, hplus⟩⟩⟩ := between_eq_error hle h
  · obtain ⟨a, ha⟩ := terms k ⟨hl, hu⟩
    cases ha.symm.trans hk
  · obtain ⟨a, ha⟩ := terms k ⟨hl, hu⟩
    cases ha.symm.trans hk
  · obtain ⟨hunlike, hcause⟩ := Arithmetic.plus_eq_error hplus
    refine ⟨fun hlike => hunlike ⟨?_, ?_⟩, hcause⟩
    · obtain ⟨a, ha⟩ := terms low ⟨le_refl low, hle⟩
      rw [units_of_between (by omega) hsum ha]
      exact (hlike low k ⟨le_refl low, hle⟩ ⟨hl, hu⟩ a b ha hb).units
    · intro p q hp hq
      obtain ⟨i, hi, a, ha, hshape⟩ := (shape?_of_between (by omega) hsum).1 hp
      have hihigh : i ≤ high := hi.2.trans (by omega)
      exact (hlike i k ⟨hi.1, hihigh⟩ ⟨hl, hu⟩ a b ha hb).shapes p q hshape hq

end QuantityCalculus.Series
