import QuantityCalculus.Proofs.CompoundUnit.Canonical
import QuantityCalculus.Proofs.Exponent.Ratio

/-!
The algebra of compound units symbol by symbol. An operation on canonical units has a given result
exactly when the same operation on the exponents gives its exponents, at the symbols that are
stored and at all others.
-/
namespace QuantityCalculus.CompoundUnit

variable {u v w : CompoundUnit} {symbol : String}

theorem exponent_of_not_mem (h : symbol ∉ u.symbols) : u.exponent symbol = .zero := by
  have hnone : u.entries.lookup symbol = none := by
    rw [List.lookup_eq_none_iff]
    intro entry hm
    rw [bne_iff_ne]
    rintro rfl
    exact h (List.mem_map_of_mem hm)
  rw [exponent, hnone, Option.getD_none]

theorem ZeroFree.mem_symbols_iff (h : u.ZeroFree) :
    symbol ∈ u.symbols ↔ (u.exponent symbol).isZero = false := by
  constructor
  · intro hm
    obtain ⟨entry, hentry, rfl⟩ := List.mem_map.1 hm
    by_contra hzero
    have hnone := h.lookup_eq entry.1
    rw [if_pos (Bool.not_eq_false _ ▸ hzero), List.lookup_eq_none_iff] at hnone
    exact bne_iff_ne.1 (hnone entry hentry) rfl
  · intro hzero
    by_contra hm
    rw [exponent_of_not_mem hm] at hzero
    cases hzero

theorem lookup_of_mem {entries : List (String × Exponent)} {entry : String × Exponent}
    (h : entries.Pairwise fun p q => p.1 < q.1) (hm : entry ∈ entries) :
    entries.lookup entry.1 = some entry.2 := by
  induction entries with
  | nil => cases hm
  | cons first rest ih =>
    obtain ⟨s, e⟩ := first
    obtain ⟨hfirst, hrest⟩ := List.pairwise_cons.1 h
    rw [lookup_entry_cons]
    rcases List.mem_cons.1 hm with rfl | hm
    · rw [if_pos rfl]
    · have hne : entry.1 ≠ s := fun heq => String.lt_irrefl s (heq ▸ hfirst entry hm)
      rw [if_neg hne, ih hrest hm]

theorem Ordered.exponent_eq {entry : String × Exponent} (h : u.Ordered) (hm : entry ∈ u.entries) :
    u.exponent entry.1 = entry.2 := by
  rw [exponent, lookup_of_mem h hm, Option.getD_some]

section Tabulate

variable {f : String → Option Exponent} {symbols : List String}

theorem exists_tabulate? (h : ∀ symbol ∈ symbols, ∃ e, f symbol = some e) (u : CompoundUnit) :
    ∃ w, tabulate? f symbols u = some w := by
  induction symbols generalizing u with
  | nil => exact ⟨u, rfl⟩
  | cons symbol rest ih =>
    obtain ⟨e, he⟩ := h symbol List.mem_cons_self
    obtain ⟨w, hw⟩ := ih (fun s hs => h s (List.mem_cons_of_mem _ hs)) (u.set symbol e)
    exact ⟨w, by rw [tabulate?, he]; exact hw⟩

theorem exponent_tabulate?_of_not_mem (h : tabulate? f symbols u = some w)
    (hs : symbol ∉ symbols) : w.exponent symbol = u.exponent symbol := by
  induction symbols generalizing u with
  | nil =>
    obtain rfl := Option.some.inj h
    rfl
  | cons first rest ih =>
    rw [tabulate?, Option.bind_eq_bind, Option.bind_eq_some_iff] at h
    obtain ⟨e, -, h⟩ := h
    rw [ih h (List.not_mem_of_not_mem_cons hs), exponent_set,
      if_neg (List.ne_of_not_mem_cons hs)]

/-- A zero is not kept, and reads as the one zero whatever its denominator was. -/
theorem exponent_tabulate? (h : tabulate? f symbols u = some w) (hs : symbol ∈ symbols) :
    ∃ e, f symbol = some e ∧ w.exponent symbol = if e.isZero then .zero else e := by
  induction symbols generalizing u with
  | nil => cases hs
  | cons first rest ih =>
    rw [tabulate?, Option.bind_eq_bind, Option.bind_eq_some_iff] at h
    obtain ⟨e, he, h⟩ := h
    by_cases hrest : symbol ∈ rest
    · exact ih h hrest
    · obtain rfl : symbol = first := (List.mem_cons.1 hs).resolve_right hrest
      refine ⟨e, he, ?_⟩
      rw [exponent_tabulate?_of_not_mem h hrest, exponent_set, if_pos rfl]

theorem tabulate?_value (hf : ∀ symbol e, f symbol = some e → e.Reduced)
    (h : tabulate? f symbols u = some w) (hs : symbol ∈ symbols) :
    f symbol = some (w.exponent symbol) := by
  obtain ⟨e, he, hw⟩ := exponent_tabulate? h hs
  rw [he, hw]
  split
  · rename_i hzero
    rw [(hf symbol e he).eq_zero hzero]
  · rfl

theorem tabulate?_eq_none_iff :
    tabulate? f symbols u = none ↔ ∃ symbol ∈ symbols, f symbol = none := by
  constructor
  · intro h
    by_contra hsome
    have hall : ∀ symbol ∈ symbols, ∃ e, f symbol = some e := by
      intro symbol hs
      exact Option.ne_none_iff_exists'.1 fun hnone => hsome ⟨symbol, hs, hnone⟩
    obtain ⟨w, hw⟩ := exists_tabulate? hall u
    rw [h] at hw
    cases hw
  · rintro ⟨symbol, hs, hnone⟩
    by_contra hsome
    obtain ⟨w, hw⟩ := Option.ne_none_iff_exists'.1 hsome
    obtain ⟨e, he, -⟩ := exponent_tabulate? hw hs
    rw [hnone] at he
    cases he

/-- Outside the listed symbols the function has to give zero, as the unit is zero there. -/
theorem tabulate?_eq_some_iff (hw : w.Canonical) (hf : ∀ symbol e, f symbol = some e → e.Reduced)
    (hout : ∀ symbol, symbol ∉ symbols → f symbol = some .zero) :
    tabulate? f symbols dimensionless = some w ↔
      ∀ symbol, f symbol = some (w.exponent symbol) := by
  have hforward : ∀ w', tabulate? f symbols dimensionless = some w' →
      ∀ symbol, f symbol = some (w'.exponent symbol) := by
    intro w' h symbol
    by_cases hs : symbol ∈ symbols
    · exact tabulate?_value hf h hs
    · rw [hout symbol hs, exponent_tabulate?_of_not_mem h hs]
      rfl
  constructor
  · exact hforward w
  · intro h
    obtain ⟨w', hw'⟩ := exists_tabulate? (fun symbol _ => ⟨_, h symbol⟩) dimensionless
    have hcanonical : w'.Canonical := canonical_dimensionless.tabulate? hf hw'
    have heq : w' = w := by
      apply hcanonical.ext hw
      intro symbol
      exact Option.some.inj ((hforward w' hw' symbol).symm.trans (h symbol))
    rw [hw', heq]

end Tabulate

theorem mem_symbolsOfBoth :
    symbol ∈ symbolsOfBoth u v ↔ symbol ∈ u.symbols ∨ symbol ∈ v.symbols := by
  by_cases h : symbol ∈ u.symbols <;> simp [symbolsOfBoth, h]

section Combine

variable {op : Exponent → Exponent → Option Exponent}

theorem combine?_eq_none_iff :
    u.combine? v op = none ↔ ∃ symbol, (symbol ∈ u.symbols ∨ symbol ∈ v.symbols) ∧
      op (u.exponent symbol) (v.exponent symbol) = none := by
  rw [combine?, tabulate?_eq_none_iff]
  simp only [mem_symbolsOfBoth]

/-- Where two zeros have a result, symbols that are not stored are never refused. -/
theorem combine?_eq_none_iff_exists (hzero : op .zero .zero ≠ none) :
    u.combine? v op = none ↔ ∃ symbol, op (u.exponent symbol) (v.exponent symbol) = none := by
  rw [combine?_eq_none_iff]
  constructor
  · rintro ⟨symbol, -, hnone⟩
    exact ⟨symbol, hnone⟩
  · rintro ⟨symbol, hnone⟩
    refine ⟨symbol, ?_, hnone⟩
    by_contra hs
    obtain ⟨hsu, hsv⟩ := not_or.1 hs
    rw [exponent_of_not_mem hsu, exponent_of_not_mem hsv] at hnone
    exact hzero hnone

theorem exponent_combine? (h : u.combine? v op = some w)
    (hs : symbol ∈ u.symbols ∨ symbol ∈ v.symbols) :
    ∃ e, op (u.exponent symbol) (v.exponent symbol) = some e ∧
      w.exponent symbol = if e.isZero then .zero else e :=
  exponent_tabulate? h (mem_symbolsOfBoth.2 hs)

theorem exponent_combine?_of_not_mem (h : u.combine? v op = some w) (hu : symbol ∉ u.symbols)
    (hv : symbol ∉ v.symbols) : w.exponent symbol = .zero :=
  exponent_tabulate?_of_not_mem h (mt mem_symbolsOfBoth.1 (not_or.2 ⟨hu, hv⟩))

/-- The operands may change places along with those of the operation, although the symbols are then
visited in another order. -/
theorem combine?_swap (u v : CompoundUnit) (op : Exponent → Exponent → Option Exponent) :
    u.combine? v op = v.combine? u fun e f => op f e := by
  cases hw : u.combine? v op with
  | none =>
    obtain ⟨symbol, hs, hnone⟩ := combine?_eq_none_iff.1 hw
    exact (combine?_eq_none_iff.2 ⟨symbol, hs.symm, hnone⟩).symm
  | some w =>
    cases hw' : v.combine? u fun e f => op f e with
    | none =>
      obtain ⟨symbol, hs, hnone⟩ := combine?_eq_none_iff.1 hw'
      have hnone' := combine?_eq_none_iff.2 ⟨symbol, hs.symm, hnone⟩
      rw [hw] at hnone'
      cases hnone'
    | some w' =>
      apply congrArg some
      have hordered := canonical_dimensionless.ordered
      apply (hordered.tabulate? hw).ext (hordered.tabulate? hw') (zeroFree_of_combine? hw)
        (zeroFree_of_combine? hw')
      intro symbol
      by_cases hs : symbol ∈ u.symbols ∨ symbol ∈ v.symbols
      · obtain ⟨e, he, hvalue⟩ := exponent_combine? hw hs
        obtain ⟨e', he', hvalue'⟩ := exponent_combine? hw' hs.symm
        obtain rfl : e = e' := Option.some.inj (he.symm.trans he')
        rw [hvalue, hvalue']
      · obtain ⟨hsu, hsv⟩ := not_or.1 hs
        rw [exponent_combine?_of_not_mem hw hsu hsv, exponent_combine?_of_not_mem hw' hsv hsu]

theorem multiply?_comm (u v : CompoundUnit) : u.multiply? v = v.multiply? u := by
  rw [multiply?, multiply?, combine?_swap]
  apply congrArg
  funext e f
  exact Exponent.add?_comm f e

end Combine

theorem combine?_eq_some_iff {op : Exponent → Exponent → Option Exponent}
    (hop : ∀ e f r, e.Reduced → f.Reduced → op e f = some r → r.Reduced)
    (hzero : op .zero .zero = some .zero) (hu : u.Canonical) (hv : v.Canonical)
    (hw : w.Canonical) :
    u.combine? v op = some w ↔
      ∀ symbol, op (u.exponent symbol) (v.exponent symbol) = some (w.exponent symbol) := by
  apply tabulate?_eq_some_iff hw
  · intro symbol e he
    exact hop _ _ e (hu.reduced.exponent symbol) (hv.reduced.exponent symbol) he
  · intro symbol hs
    obtain ⟨hsu, hsv⟩ := not_or.1 (mt mem_symbolsOfBoth.2 hs)
    rw [exponent_of_not_mem hsu, exponent_of_not_mem hsv, hzero]

theorem map?_eq_none_iff {f : Exponent → Option Exponent} :
    u.map? f = none ↔ ∃ symbol ∈ u.symbols, f (u.exponent symbol) = none :=
  tabulate?_eq_none_iff

theorem map?_eq_none_iff_exists {f : Exponent → Option Exponent} (hzero : f .zero ≠ none) :
    u.map? f = none ↔ ∃ symbol, f (u.exponent symbol) = none := by
  rw [map?_eq_none_iff]
  constructor
  · rintro ⟨symbol, -, hnone⟩
    exact ⟨symbol, hnone⟩
  · rintro ⟨symbol, hnone⟩
    refine ⟨symbol, ?_, hnone⟩
    by_contra hs
    rw [exponent_of_not_mem hs] at hnone
    exact hzero hnone

theorem map?_eq_some_iff {f : Exponent → Option Exponent}
    (hf : ∀ e r, e.Reduced → f e = some r → r.Reduced) (hzero : f .zero = some .zero)
    (hu : u.Canonical) (hw : w.Canonical) :
    u.map? f = some w ↔ ∀ symbol, f (u.exponent symbol) = some (w.exponent symbol) := by
  apply tabulate?_eq_some_iff hw
  · intro symbol e he
    exact hf _ e (hu.reduced.exponent symbol) he
  · intro symbol hs
    rw [exponent_of_not_mem hs, hzero]

theorem multiply?_eq_some_iff (hu : u.Canonical) (hv : v.Canonical) (hw : w.Canonical) :
    u.multiply? v = some w ↔
      ∀ symbol, (u.exponent symbol).add? (v.exponent symbol) = some (w.exponent symbol) :=
  combine?_eq_some_iff (fun _ _ _ he hf => Exponent.reduced_of_overCommon? he.proper hf.proper)
    (by decide) hu hv hw

theorem divide?_eq_some_iff (hu : u.Canonical) (hv : v.Canonical) (hw : w.Canonical) :
    u.divide? v = some w ↔
      ∀ symbol, (u.exponent symbol).sub? (v.exponent symbol) = some (w.exponent symbol) :=
  combine?_eq_some_iff (fun _ _ _ he hf => Exponent.reduced_of_overCommon? he.proper hf.proper)
    (by decide) hu hv hw

theorem scale?_eq_some_iff {factor : Exponent} (hfactor : factor.Reduced) (hu : u.Canonical)
    (hw : w.Canonical) :
    u.scale? factor = some w ↔
      ∀ symbol, (u.exponent symbol).mul? factor = some (w.exponent symbol) := by
  apply map?_eq_some_iff (fun _ _ he => Exponent.reduced_of_mul? he.proper hfactor.proper) ?_ hu hw
  rw [Exponent.mul?_eq_some_iff Exponent.reduced_zero hfactor]
  exact ⟨Exponent.reduced_zero, by decide, by rw [Exponent.ratio_zero, zero_mul]⟩

theorem root?_eq_some_iff {index : Nat} (hindex : 0 < index) (hu : u.Canonical)
    (hw : w.Canonical) :
    u.root? index = some w ↔
      ∀ symbol, (u.exponent symbol).div? (.ofInt index) = some (w.exponent symbol) := by
  apply map?_eq_some_iff (fun _ _ he => Exponent.reduced_of_div? he.proper) ?_ hu hw
  rw [Exponent.div?_eq_some_iff Exponent.reduced_zero (Exponent.reduced_ofInt index)
    (Int.natCast_pos.2 hindex)]
  exact ⟨Exponent.reduced_zero, by decide, by rw [Exponent.ratio_zero, zero_div]⟩

end QuantityCalculus.CompoundUnit
