import QuantityCalculus.CompoundUnit.Algebra

/-!
Compound units without zero exponents, which is how every operation leaves them.
-/
namespace QuantityCalculus.CompoundUnit

/-- No exponent that is stored is zero. -/
def ZeroFree (u : CompoundUnit) : Prop :=
  ∀ entry ∈ u.entries, entry.2.isZero = false

instance (u : CompoundUnit) : Decidable u.ZeroFree :=
  inferInstanceAs (Decidable (∀ entry ∈ u.entries, entry.2.isZero = false))

variable {u v w : CompoundUnit}

theorem zeroFree_dimensionless : dimensionless.ZeroFree := by
  intro entry h
  cases h

theorem mem_insertEntry {symbol : String} {e : Exponent} {entries : List (String × Exponent)}
    {entry : String × Exponent} (h : entry ∈ insertEntry symbol e entries) :
    entry = (symbol, e) ∨ entry ∈ entries := by
  induction entries with
  | nil => exact .inl (List.mem_singleton.1 h)
  | cons first rest ih =>
    obtain ⟨s, f⟩ := first
    unfold insertEntry at h
    split at h
    · exact List.mem_cons.1 h
    · split at h
      · rcases List.mem_cons.1 h with rfl | h
        · exact .inl rfl
        · exact .inr (List.mem_cons_of_mem _ h)
      · rcases List.mem_cons.1 h with rfl | h
        · exact .inr List.mem_cons_self
        · exact (ih h).imp_right (List.mem_cons_of_mem _)

theorem mem_set {symbol : String} {e : Exponent} {entry : String × Exponent}
    (h : entry ∈ (u.set symbol e).entries) : entry = (symbol, e) ∨ entry ∈ u.entries := by
  unfold CompoundUnit.set at h
  split at h
  · exact .inr (List.mem_filter.1 h).1
  · exact mem_insertEntry h

theorem ZeroFree.set (h : u.ZeroFree) (symbol : String) (e : Exponent) :
    (u.set symbol e).ZeroFree := by
  intro entry hm
  unfold CompoundUnit.set at hm
  split at hm
  · exact h entry (List.mem_filter.1 hm).1
  · rename_i he
    rcases mem_insertEntry hm with rfl | hm
    · exact Bool.eq_false_iff.2 he
    · exact h entry hm

theorem ZeroFree.tabulate? {f : String → Option Exponent} {symbols : List String}
    (hu : u.ZeroFree) (h : tabulate? f symbols u = some w) : w.ZeroFree := by
  induction symbols generalizing u with
  | nil =>
    obtain rfl : u = w := Option.some.inj h
    exact hu
  | cons symbol rest ih =>
    rw [CompoundUnit.tabulate?, Option.bind_eq_bind, Option.bind_eq_some_iff] at h
    obtain ⟨e, -, h⟩ := h
    exact ih (hu.set symbol e) h

theorem zeroFree_of_combine? {op : Exponent → Exponent → Option Exponent}
    (h : combine? u v op = some w) : w.ZeroFree :=
  zeroFree_dimensionless.tabulate? h

theorem zeroFree_of_map? {f : Exponent → Option Exponent} (h : map? u f = some w) : w.ZeroFree :=
  zeroFree_dimensionless.tabulate? h

theorem zeroFree_of_power? {x : Float} (h : u.power? x = some w) : w.ZeroFree := by
  unfold power? at h
  split at h
  · obtain rfl := Option.some.inj h
    exact zeroFree_dimensionless
  · rw [Option.bind_eq_bind, Option.bind_eq_some_iff] at h
    obtain ⟨e, -, h⟩ := h
    exact zeroFree_of_map? h

end QuantityCalculus.CompoundUnit
