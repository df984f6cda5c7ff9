import QuantityCalculus.Proofs.CompoundUnit.Closure

/-!
Units whose fractions need not be in lowest terms. Each of them is the same unit as its lowest
terms, which are canonical. To its lowest terms a root goes back as well, if they are in range.
-/
namespace QuantityCalculus

namespace Exponent

variable {e f : Exponent}

/-- The two integers fit in words and make up a fraction. -/
def Exchangeable (e : Exponent) : Prop :=
  e.InRange ∧ e.denominator ≠ 0

instance (e : Exponent) : Decidable e.Exchangeable :=
  inferInstanceAs (Decidable (_ ∧ _))

/-- The same fraction in lowest terms, its denominator positive. -/
def lowest (e : Exponent) : Exponent :=
  reduce e.numerator e.denominator

theorem lowest_zero : zero.lowest = zero := by
  decide

theorem Proper.reduced_lowest (he : e.Proper) : e.lowest.Reduced :=
  reduced_reduce e.numerator he

theorem Proper.ratio_lowest (he : e.Proper) : e.lowest.ratio = e.ratio :=
  ratio_reduce e.numerator he

theorem sameValue_iff_ratio (he : e.Proper) (hf : f.Proper) :
    e.sameValue f = true ↔ e.ratio = f.ratio := by
  rw [ratio, ratio, div_eq_div_iff he.denominator_ne_zero hf.denominator_ne_zero]
  exact decide_eq_true_iff.trans (by norm_cast)

theorem Proper.sameValue_lowest (he : e.Proper) : e.sameValue e.lowest = true :=
  (sameValue_iff_ratio he he.reduced_lowest.proper).2 he.ratio_lowest.symm

theorem Proper.isZero_lowest (he : e.Proper) : e.lowest.isZero = e.isZero := by
  rw [Bool.eq_iff_iff, isZero_iff_ratio he.reduced_lowest.proper, isZero_iff_ratio he,
    he.ratio_lowest]

theorem Proper.representable_iff (he : e.Proper) : Representable e.ratio ↔ e.lowest.InRange := by
  rw [← he.ratio_lowest, he.reduced_lowest.representable_iff]

end Exponent

namespace CompoundUnit

variable {u r : CompoundUnit} {entries : List (String × Exponent)} {index : Nat}

/-- The unit stands in canonical order, but its exponents need not be in lowest terms. -/
structure Exchangeable (u : CompoundUnit) : Prop where
  ordered : u.Ordered
  zeroFree : u.ZeroFree
  exponents : ∀ entry ∈ u.entries, entry.2.Exchangeable

instance (u : CompoundUnit) : Decidable u.Exchangeable :=
  decidable_of_iff (u.Ordered ∧ u.ZeroFree ∧ ∀ entry ∈ u.entries, entry.2.Exchangeable)
    ⟨fun h => ⟨h.1, h.2.1, h.2.2⟩, fun h => ⟨h.ordered, h.zeroFree, h.exponents⟩⟩

theorem Canonical.exchangeable (h : u.Canonical) (hr : u.InRange) : u.Exchangeable where
  ordered := h.ordered
  zeroFree := h.zeroFree
  exponents entry hm := ⟨hr entry hm, (h.reduced entry hm).1.ne'⟩

theorem Exchangeable.proper (hu : u.Exchangeable) : u.Proper :=
  fun entry hm => (hu.exponents entry hm).2

theorem closed_exchangeable : Closed Exchangeable :=
  closed_of_sound (fun _ hu => hu.proper) fun _ hu => hu.canonical.exchangeable hu.inRange

def lowestEntries (entries : List (String × Exponent)) : List (String × Exponent) :=
  entries.map fun (symbol, e) => (symbol, e.lowest)

/-- The unit with all its fractions in lowest terms. -/
def lowestTerms (u : CompoundUnit) : CompoundUnit :=
  ⟨lowestEntries u.entries⟩

theorem map_fst_lowestEntries (entries : List (String × Exponent)) :
    (lowestEntries entries).map Prod.fst = entries.map Prod.fst := by
  rw [lowestEntries, List.map_map]
  rfl

theorem forall_mem_lowestEntries (P : Exponent → Prop) :
    (∀ entry ∈ lowestEntries entries, P entry.2) ↔ ∀ entry ∈ entries, P entry.2.lowest :=
  List.forall_mem_map

theorem Exchangeable.canonical_lowestTerms (hu : u.Exchangeable) : u.lowestTerms.Canonical where
  ordered := List.pairwise_map.2 hu.ordered
  zeroFree := (forall_mem_lowestEntries fun e => e.isZero = false).2 fun entry hm =>
    (hu.proper entry hm).isZero_lowest.trans (hu.zeroFree entry hm)
  reduced := (forall_mem_lowestEntries Exponent.Reduced).2 fun entry hm =>
    (hu.proper entry hm).reduced_lowest

theorem Proper.sameUnit_lowestTerms (hu : u.Proper) : u.sameUnit u.lowestTerms = true := by
  obtain ⟨entries⟩ := u
  induction entries with
  | nil => rfl
  | cons entry rest ih =>
    obtain ⟨hfirst, hrest⟩ := List.forall_mem_cons.1 hu
    have hvalue := hfirst.sameValue_lowest
    have hothers := ih hrest
    simp only [sameUnit, lowestTerms, lowestEntries, List.map_cons, sameEntries] at hothers ⊢
    simp [hvalue, hothers]

theorem Exchangeable.eq_lowestTerms_iff (hu : u.Exchangeable) : u = u.lowestTerms ↔ u.Reduced := by
  constructor
  · intro h
    rw [h]
    exact hu.canonical_lowestTerms.reduced
  · intro hr
    exact eq_of_sameUnit hr hu.canonical_lowestTerms.reduced hu.proper.sameUnit_lowestTerms

theorem lookup_lowestEntries (entries : List (String × Exponent)) (symbol : String) :
    (lowestEntries entries).lookup symbol = (entries.lookup symbol).map Exponent.lowest := by
  induction entries with
  | nil => rfl
  | cons entry rest ih =>
    obtain ⟨s, e⟩ := entry
    change ((s, e.lowest) :: lowestEntries rest).lookup symbol = _
    rw [lookup_entry_cons, lookup_entry_cons, ih]
    split <;> rfl

theorem exponent_lowestTerms (u : CompoundUnit) (symbol : String) :
    u.lowestTerms.exponent symbol = (u.exponent symbol).lowest := by
  have hlookup : u.lowestTerms.entries.lookup symbol =
      (u.entries.lookup symbol).map Exponent.lowest := lookup_lowestEntries u.entries symbol
  rw [exponent, exponent, hlookup]
  cases u.entries.lookup symbol with
  | none => exact Exponent.lowest_zero.symm
  | some e => rfl

theorem Proper.degree_lowestTerms (hu : u.Proper) (symbol : String) :
    u.lowestTerms.degree symbol = u.degree symbol := by
  rw [degree, exponent_lowestTerms]
  exact (hu.exponent symbol).ratio_lowest

/-- A root goes back to the lowest terms of its unit, unless one of these is out of range. -/
theorem Exchangeable.scale?_of_root? (hu : u.Exchangeable) (hindex : 0 < index)
    (h : u.root? index = some r) :
    (r.scale? (.ofInt index) = none ↔ ∃ symbol, ¬ Representable (u.degree symbol)) ∧
      ∀ w, r.scale? (.ofInt index) = some w → w = u.lowestTerms := by
  have hr : r.Canonical := (hu.proper.sound_root? h).canonical
  have hne : (index : ℚ) ≠ 0 := Nat.cast_ne_zero.2 hindex.ne'
  have hfactor : (Exponent.ofInt index).Reduced := Exponent.reduced_ofInt index
  have hback (symbol : String) :
      r.degree symbol * (Exponent.ofInt index).ratio = u.degree symbol := by
    rw [degree_root? hu.proper hindex h, Exponent.ratio_ofInt, Int.cast_natCast,
      div_mul_cancel₀ _ hne]
  constructor
  · simp only [scale?_eq_none_iff hr hfactor, hback]
  · intro w hw
    apply (hr.scale? hfactor hw).ext_degree hu.canonical_lowestTerms
    intro symbol
    rw [degree_scale? hr.proper hfactor.proper hw, hback, hu.proper.degree_lowestTerms]

end CompoundUnit

end QuantityCalculus
