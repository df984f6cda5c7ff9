import QuantityCalculus.Proofs.CompoundUnit.Rereading

/-!
The order in which powers are taken up. As long as the absolute values of the exponents of each
symbol add up to a number that fits in a word, no sum of some of them leaves the range, and the
unit depends on the sum of all of them only.
-/
namespace QuantityCalculus.CompoundUnit

variable {u : CompoundUnit} {powers others : List (String × Int)} {symbol : String} {n : Int}

/-- The powers taken up one after the other. -/
def accumulateAll (u : CompoundUnit) (powers : List (String × Int)) : CompoundUnit :=
  powers.foldl (fun u (symbol, n) => u.accumulate symbol (.ofInt n)) u

/-- The sum of the absolute values of the exponents that are listed for a symbol. -/
def magnitude (symbol : String) (powers : List (String × Int)) : Int :=
  total symbol (powers.map fun power => (power.1, (power.2.natAbs : Int)))

theorem magnitude_cons (other : String) :
    magnitude other ((symbol, n) :: powers) =
      (if symbol = other then (n.natAbs : Int) else 0) + magnitude other powers :=
  total_cons other

theorem magnitude_nonneg (symbol : String) (powers : List (String × Int)) :
    0 ≤ magnitude symbol powers := by
  induction powers with
  | nil => exact le_rfl
  | cons power rest ih =>
    obtain ⟨s, n⟩ := power
    rw [magnitude_cons]
    split <;> omega

theorem total_perm (h : powers.Perm others) (symbol : String) :
    total symbol powers = total symbol others :=
  ((h.filter _).map _).sum_eq

theorem IsProduct.of_perm (h : u.IsProduct powers) (hperm : powers.Perm others) :
    u.IsProduct others := by
  refine ⟨h.canonical, ?_⟩
  intro symbol
  rw [h.exponent_eq, total_perm hperm]

theorem IsProduct.accumulate (h : u.IsProduct powers) (htotal : InWord (total symbol powers))
    (hn : InWord n) (hsum : InWord (total symbol powers + n)) :
    (u.accumulate symbol (.ofInt n)).IsProduct (powers ++ [(symbol, n)]) := by
  rw [CompoundUnit.accumulate, h.accumulate?_eq htotal hn, inWord?, if_pos hsum]
  exact h.set symbol n

/-- Nothing is dropped on the way, as no sum of some exponents exceeds their magnitude. -/
theorem IsProduct.accumulateAll (h : u.IsProduct powers)
    (hbound : ∀ symbol, InWord ((total symbol powers).natAbs + magnitude symbol others)) :
    (u.accumulateAll others).IsProduct (powers ++ others) := by
  induction others generalizing u powers with
  | nil =>
    rw [List.append_nil]
    exact h
  | cons power rest ih =>
    obtain ⟨s, n⟩ := power
    have hrest := magnitude_nonneg s rest
    have hs := hbound s
    rw [magnitude_cons, if_pos rfl] at hs
    have hstep : (u.accumulate s (.ofInt n)).IsProduct (powers ++ [(s, n)]) := by
      apply h.accumulate <;> unfold InWord at * <;> omega
    rw [List.append_cons]
    refine ih hstep ?_
    intro symbol
    have hsymbol := hbound symbol
    rw [magnitude_cons] at hsymbol
    rw [total_concat]
    by_cases heq : s = symbol
    · rw [if_pos heq] at hsymbol ⊢
      have hnonneg := magnitude_nonneg symbol rest
      unfold InWord at *
      omega
    · rw [if_neg heq] at hsymbol ⊢
      rwa [add_zero, ← zero_add (magnitude symbol rest)]

theorem IsProduct.mem_symbols_iff (h : u.IsProduct powers) (symbol : String) :
    symbol ∈ u.symbols ↔ total symbol powers ≠ 0 := by
  rw [h.canonical.zeroFree.mem_symbols_iff, h.exponent_eq]
  exact decide_eq_false_iff_not

/-- What is stored already counts as a power of its own. -/
theorem accumulateAll_isProduct (hu : u.Canonical) (hi : u.IntegerPowers)
    (hbound : ∀ symbol, InWord ((u.exponent symbol).numerator.natAbs + magnitude symbol powers)) :
    (u.accumulateAll powers).IsProduct (powersOf u.entries ++ powers) := by
  refine (isProduct_powersOf hu hi).accumulateAll ?_
  intro symbol
  rw [total_powersOf hu.ordered]
  exact hbound symbol

theorem accumulateAll_of_perm (hu : u.Canonical) (hi : u.IntegerPowers)
    (hperm : powers.Perm others)
    (hbound : ∀ symbol, InWord ((u.exponent symbol).numerator.natAbs + magnitude symbol powers)) :
    u.accumulateAll others = u.accumulateAll powers := by
  have hpowers := accumulateAll_isProduct hu hi hbound
  have hothers : (u.accumulateAll others).IsProduct (powersOf u.entries ++ others) := by
    refine accumulateAll_isProduct hu hi ?_
    intro symbol
    have hmagnitude : magnitude symbol others = magnitude symbol powers :=
      total_perm (hperm.symm.map _) symbol
    rw [hmagnitude]
    exact hbound symbol
  exact (hothers.of_perm (hperm.symm.append_left _)).eq hpowers

/-- Powers may be taken up in any order where the absolute values of the exponents of each symbol,
the one that it has already among them, add up to a number of the range. The exponents are then
the sums of the listed ones, and a symbol whose sum is zero is not stored. -/
theorem order_immaterial :
    (∀ powers others, powers.Perm others → (∀ symbol, InWord (magnitude symbol powers)) →
      ofPowers others = ofPowers powers ∧
      ∀ symbol, (ofPowers powers).exponent symbol = .ofInt (total symbol powers) ∧
        (symbol ∈ (ofPowers powers).symbols ↔ total symbol powers ≠ 0)) ∧
    ∀ (u : CompoundUnit) powers others, u.Canonical → u.IntegerPowers → powers.Perm others →
      (∀ symbol, InWord ((u.exponent symbol).numerator.natAbs + magnitude symbol powers)) →
      u.accumulateAll others = u.accumulateAll powers ∧
      ∀ symbol, (u.accumulateAll powers).exponent symbol =
          .ofInt ((u.exponent symbol).numerator + total symbol powers) ∧
        (symbol ∈ (u.accumulateAll powers).symbols ↔
          (u.exponent symbol).numerator + total symbol powers ≠ 0) := by
  constructor
  · intro powers others hperm hbound
    have hzero (symbol : String) :
        InWord ((dimensionless.exponent symbol).numerator.natAbs + magnitude symbol powers) :=
      (zero_add (magnitude symbol powers)).symm ▸ hbound symbol
    have hproduct := accumulateAll_isProduct canonical_dimensionless (by decide) hzero
    refine ⟨accumulateAll_of_perm canonical_dimensionless (by decide) hperm hzero, ?_⟩
    intro symbol
    exact ⟨hproduct.exponent_eq symbol, hproduct.mem_symbols_iff symbol⟩
  · intro u powers others hu hi hperm hbound
    have hproduct := accumulateAll_isProduct hu hi hbound
    refine ⟨accumulateAll_of_perm hu hi hperm hbound, ?_⟩
    intro symbol
    have htotal : total symbol (powersOf u.entries ++ powers) =
        (u.exponent symbol).numerator + total symbol powers := by
      rw [total_append, total_powersOf hu.ordered]
    rw [← htotal]
    exact ⟨hproduct.exponent_eq symbol, hproduct.mem_symbols_iff symbol⟩

/-- An exponent passes through zero and comes back, whereas in another order it reaches the end of
the range; on top of a unit a symbol that was stored cancels. -/
theorem order_immaterial_sample :
    let powers := [("m", 4), ("s", 1), ("m", -4), ("m", 9223372036854775799)]
    let others := [("m", 9223372036854775799), ("m", 4), ("s", 1), ("m", -4)]
    let u : CompoundUnit := ⟨[("kg", ⟨-1, 1⟩), ("s", ⟨-1, 1⟩)]⟩
    powers.Perm others ∧ ofPowers others = ofPowers powers ∧
      (ofPowers powers).exponent "m" = .ofInt 9223372036854775799 ∧
      u.Canonical ∧ u.IntegerPowers ∧ u.accumulateAll others = u.accumulateAll powers ∧
      "s" ∉ (u.accumulateAll powers).symbols := by
  intro powers others u
  have hperm : powers.Perm others := by decide
  have hu : u.Canonical := by decide
  have hi : u.IntegerPowers := by decide
  have hbound (symbol : String) :
      InWord (magnitude symbol powers) ∧
        InWord ((u.exponent symbol).numerator.natAbs + magnitude symbol powers) := by
    by_cases hlisted : symbol ∈ ["kg", "m", "s"]
    · revert symbol
      decide
    · obtain ⟨hkg, hm, hs⟩ : symbol ≠ "kg" ∧ symbol ≠ "m" ∧ symbol ≠ "s" := by
        simpa using hlisted
      have hmagnitude : magnitude symbol powers = 0 :=
        total_eq_zero (by simp [powers, hm.symm, hs.symm])
      have hexponent : u.exponent symbol = .zero :=
        exponent_of_not_mem (by simp [u, symbols, hkg, hs])
      rw [hmagnitude, hexponent]
      decide
  obtain ⟨hlist, hfold⟩ := order_immaterial
  obtain ⟨heq, hvalue⟩ := hlist powers others hperm fun symbol => (hbound symbol).1
  obtain ⟨heq', hstored⟩ := hfold u powers others hu hi hperm fun symbol => (hbound symbol).2
  exact ⟨hperm, heq, (hvalue "m").1, hu, hi, heq', mt (hstored "s").2.1 (by decide)⟩

end QuantityCalculus.CompoundUnit
