import QuantityCalculus.Proofs.CompoundUnit.ZeroFree
import QuantityCalculus.Proofs.Exponent

/-!
Canonical compound units. The entries stand in the order of their symbols, each symbol once, with
exponents in lowest terms that are not zero. Two such units with the same exponents are equal.
-/
namespace QuantityCalculus.CompoundUnit

/-- The symbols increase strictly, so that none of them stands twice. -/
def Ordered (u : CompoundUnit) : Prop :=
  u.entries.Pairwise fun p q => p.1 < q.1

instance (u : CompoundUnit) : Decidable u.Ordered :=
  inferInstanceAs (Decidable (u.entries.Pairwise fun p q => p.1 < q.1))

structure Canonical (u : CompoundUnit) : Prop where
  ordered : u.Ordered
  zeroFree : u.ZeroFree
  reduced : u.Reduced

instance (u : CompoundUnit) : Decidable u.Canonical :=
  decidable_of_iff (u.Ordered ∧ u.ZeroFree ∧ u.Reduced)
    ⟨fun h => ⟨h.1, h.2.1, h.2.2⟩, fun h => ⟨h.ordered, h.zeroFree, h.reduced⟩⟩

variable {u v w : CompoundUnit} {symbol : String} {e : Exponent}

theorem canonical_dimensionless : dimensionless.Canonical := by
  decide

section Set

theorem pairwise_insertEntry {entries : List (String × Exponent)}
    (h : entries.Pairwise fun p q => p.1 < q.1) (symbol : String) (e : Exponent) :
    (insertEntry symbol e entries).Pairwise fun p q => p.1 < q.1 := by
  induction entries with
  | nil => exact List.pairwise_singleton _ _
  | cons first rest ih =>
    obtain ⟨s, f⟩ := first
    obtain ⟨hfirst, hrest⟩ := List.pairwise_cons.1 h
    unfold insertEntry
    split
    · rename_i hlt
      refine List.pairwise_cons.2 ⟨?_, h⟩
      intro entry hm
      rcases List.mem_cons.1 hm with rfl | hm
      · exact hlt
      · exact String.lt_trans hlt (hfirst entry hm)
    · split
      · rename_i heq
        subst heq
        exact List.pairwise_cons.2 ⟨hfirst, hrest⟩
      · rename_i hle hne
        refine List.pairwise_cons.2 ⟨?_, ih hrest⟩
        intro entry hm
        rcases mem_insertEntry hm with rfl | hm
        · by_contra hc
          exact hne (String.le_antisymm (String.not_lt.1 hc) (String.not_lt.1 hle))
        · exact hfirst entry hm

theorem Ordered.set (h : u.Ordered) (symbol : String) (e : Exponent) :
    (u.set symbol e).Ordered := by
  unfold CompoundUnit.set
  split
  · exact List.Pairwise.filter _ h
  · exact pairwise_insertEntry h symbol e

theorem Reduced.set (h : u.Reduced) (he : e.Reduced) : (u.set symbol e).Reduced := by
  intro entry hm
  rcases mem_set hm with rfl | hm
  · exact he
  · exact h entry hm

theorem Canonical.set (h : u.Canonical) (he : e.Reduced) : (u.set symbol e).Canonical :=
  ⟨h.ordered.set symbol e, h.zeroFree.set symbol e, h.reduced.set he⟩

/-- An entry whose symbol comes after all others is put at the end. -/
theorem insertEntry_of_forall_lt {entries : List (String × Exponent)}
    (h : ∀ entry ∈ entries, entry.1 < symbol) (e : Exponent) :
    insertEntry symbol e entries = entries ++ [(symbol, e)] := by
  induction entries with
  | nil => rfl
  | cons first rest ih =>
    obtain ⟨s, f⟩ := first
    have hs : s < symbol := h (s, f) List.mem_cons_self
    have hrest := ih fun entry hm => h entry (List.mem_cons_of_mem _ hm)
    have hne : symbol ≠ s := fun heq => String.lt_irrefl s (heq ▸ hs)
    rw [insertEntry, if_neg (String.lt_asymm hs), if_neg hne, hrest, List.cons_append]

theorem foldl_set {before after : List (String × Exponent)}
    (ho : (before ++ after).Pairwise fun p q => p.1 < q.1)
    (hz : ∀ entry ∈ after, entry.2.isZero = false) :
    after.foldl (fun (u : CompoundUnit) (symbol, e) => u.set symbol e) ⟨before⟩ =
      ⟨before ++ after⟩ := by
  induction after generalizing before with
  | nil => rw [List.foldl_nil, List.append_nil]
  | cons first rest ih =>
    obtain ⟨s, f⟩ := first
    have hlast : ∀ entry ∈ before, entry.1 < s := fun entry hm =>
      (List.pairwise_append.1 ho).2.2 entry hm (s, f) List.mem_cons_self
    have hset : (⟨before⟩ : CompoundUnit).set s f = ⟨before ++ [(s, f)]⟩ := by
      rw [CompoundUnit.set, if_neg (Bool.eq_false_iff.1 (hz (s, f) List.mem_cons_self)),
        insertEntry_of_forall_lt hlast]
    have hassoc : before ++ (s, f) :: rest = (before ++ [(s, f)]) ++ rest := by simp
    simp only [List.foldl_cons, hset]
    rw [hassoc]
    exact ih (hassoc ▸ ho) fun entry hm => hz entry (List.mem_cons_of_mem _ hm)

theorem ofEntries_entries (ho : u.Ordered) (hz : u.ZeroFree) : ofEntries u.entries = u :=
  @foldl_set [] u.entries ho hz

theorem ofEntries_induction {P : CompoundUnit → Prop} {entries : List (String × Exponent)}
    (start : P dimensionless) (step : ∀ u, P u → ∀ entry ∈ entries, P (u.set entry.1 entry.2)) :
    P (ofEntries entries) :=
  List.foldlRecOn entries _ start step

end Set

theorem mem_of_lookup {entries : List (String × Exponent)} (h : entries.lookup symbol = some e) :
    (symbol, e) ∈ entries := by
  induction entries with
  | nil => cases h
  | cons first rest ih =>
    obtain ⟨s, f⟩ := first
    rw [lookup_entry_cons] at h
    split at h
    · rename_i hs
      obtain rfl := Option.some.inj h
      exact hs ▸ List.mem_cons_self
    · exact List.mem_cons_of_mem _ (ih h)

/-- The exponent of a symbol without an entry is in lowest terms as well. -/
theorem Reduced.exponent (h : u.Reduced) (symbol : String) : (u.exponent symbol).Reduced := by
  unfold CompoundUnit.exponent
  cases hl : u.entries.lookup symbol with
  | none => exact Exponent.reduced_ofInt 0
  | some e => exact h _ (mem_of_lookup hl)

theorem Canonical.accumulate? (h : u.Canonical) (he : e.Reduced)
    (ha : u.accumulate? symbol e = some w) : w.Canonical := by
  obtain ⟨total, ht, rfl⟩ := Option.map_eq_some_iff.1 ha
  exact h.set (Exponent.reduced_of_overCommon? (h.reduced.exponent symbol).proper he.proper ht)

theorem Canonical.accumulate (h : u.Canonical) (he : e.Reduced) :
    (u.accumulate symbol e).Canonical := by
  unfold CompoundUnit.accumulate
  cases ha : u.accumulate? symbol e with
  | none => exact h
  | some w => exact h.accumulate? he ha

theorem accumulate_of_overflow (h : (u.exponent symbol).add? e = none) :
    u.accumulate symbol e = u := by
  rw [accumulate, accumulate?, h, Option.map_none, Option.getD_none]

theorem Ordered.tabulate? {f : String → Option Exponent} {symbols : List String}
    (hu : u.Ordered) (h : tabulate? f symbols u = some w) : w.Ordered := by
  induction symbols generalizing u with
  | nil =>
    obtain rfl : u = w := Option.some.inj h
    exact hu
  | cons symbol rest ih =>
    rw [CompoundUnit.tabulate?, Option.bind_eq_bind, Option.bind_eq_some_iff] at h
    obtain ⟨e, -, h⟩ := h
    exact ih (hu.set symbol e) h

theorem Canonical.tabulate? {f : String → Option Exponent} {symbols : List String}
    (hu : u.Canonical) (hf : ∀ symbol e, f symbol = some e → e.Reduced)
    (h : tabulate? f symbols u = some w) : w.Canonical := by
  induction symbols generalizing u with
  | nil =>
    obtain rfl : u = w := Option.some.inj h
    exact hu
  | cons symbol rest ih =>
    rw [CompoundUnit.tabulate?, Option.bind_eq_bind, Option.bind_eq_some_iff] at h
    obtain ⟨e, he, h⟩ := h
    exact ih (hu.set (hf symbol e he)) h

section Algebra

theorem Canonical.combine? {op : Exponent → Exponent → Option Exponent} (hu : u.Canonical)
    (hv : v.Canonical) (hop : ∀ e f r, e.Reduced → f.Reduced → op e f = some r → r.Reduced)
    (h : u.combine? v op = some w) : w.Canonical := by
  refine canonical_dimensionless.tabulate? ?_ h
  intro symbol e he
  exact hop _ _ e (hu.reduced.exponent symbol) (hv.reduced.exponent symbol) he

theorem Canonical.map? {f : Exponent → Option Exponent} (hu : u.Canonical)
    (hf : ∀ e r, e.Reduced → f e = some r → r.Reduced) (h : u.map? f = some w) : w.Canonical := by
  refine canonical_dimensionless.tabulate? ?_ h
  intro symbol e he
  exact hf _ e (hu.reduced.exponent symbol) he

theorem Canonical.multiply? (hu : u.Canonical) (hv : v.Canonical) (h : u.multiply? v = some w) :
    w.Canonical :=
  hu.combine? hv (fun _ _ _ he hf => Exponent.reduced_of_overCommon? he.proper hf.proper) h

theorem Canonical.divide? (hu : u.Canonical) (hv : v.Canonical) (h : u.divide? v = some w) :
    w.Canonical :=
  hu.combine? hv (fun _ _ _ he hf => Exponent.reduced_of_overCommon? he.proper hf.proper) h

theorem Canonical.scale? {factor : Exponent} (hu : u.Canonical) (hf : factor.Reduced)
    (h : u.scale? factor = some w) : w.Canonical :=
  hu.map? (fun _ _ he => Exponent.reduced_of_mul? he.proper hf.proper) h

theorem Canonical.root? {index : Nat} (hu : u.Canonical) (h : u.root? index = some w) :
    w.Canonical :=
  hu.map? (fun _ _ he => Exponent.reduced_of_div? he.proper) h

theorem Canonical.power? {x : Float} (hu : u.Canonical) (h : u.power? x = some w) :
    w.Canonical := by
  unfold CompoundUnit.power? at h
  split at h
  · obtain rfl := Option.some.inj h
    exact canonical_dimensionless
  · rw [Option.bind_eq_bind, Option.bind_eq_some_iff] at h
    obtain ⟨factor, hf, h⟩ := h
    exact hu.scale? (Exponent.reduced_of_ofFloat? hf) h

end Algebra

section Extensionality

theorem lookup_eq_none_of_lt {entries : List (String × Exponent)}
    (h : ∀ entry ∈ entries, symbol < entry.1) : entries.lookup symbol = none := by
  rw [List.lookup_eq_none_iff]
  intro entry hm
  rw [bne_iff_ne]
  intro heq
  exact String.lt_irrefl entry.1 (heq ▸ h entry hm)

theorem eq_of_lookup {entries others : List (String × Exponent)}
    (he : entries.Pairwise fun p q => p.1 < q.1) (ho : others.Pairwise fun p q => p.1 < q.1)
    (h : ∀ symbol, entries.lookup symbol = others.lookup symbol) : entries = others := by
  induction entries generalizing others with
  | nil =>
    cases others with
    | nil => rfl
    | cons first rest =>
      obtain ⟨t, f⟩ := first
      simpa [lookup_entry_cons] using h t
  | cons first rest ih =>
    obtain ⟨s, e⟩ := first
    cases others with
    | nil => simpa [lookup_entry_cons] using h s
    | cons first' rest' =>
      obtain ⟨t, f⟩ := first'
      obtain ⟨hs, hrest⟩ := List.pairwise_cons.1 he
      obtain ⟨ht, hrest'⟩ := List.pairwise_cons.1 ho
      simp only [lookup_entry_cons] at h
      -- The lesser of the two first symbols would have no entry on the other side.
      have hnlt : ¬ s < t := by
        intro hlt
        have hnone : rest'.lookup s = none :=
          lookup_eq_none_of_lt fun entry hm => String.lt_trans hlt (ht entry hm)
        have hne : s ≠ t := fun heq => String.lt_irrefl t (heq ▸ hlt)
        simpa [hne, hnone] using h s
      have hngt : ¬ t < s := by
        intro hlt
        have hnone : rest.lookup t = none :=
          lookup_eq_none_of_lt fun entry hm => String.lt_trans hlt (hs entry hm)
        have hne : t ≠ s := fun heq => String.lt_irrefl s (heq ▸ hlt)
        simpa [hne, hnone] using h t
      obtain rfl : s = t := String.le_antisymm (String.not_lt.1 hngt) (String.not_lt.1 hnlt)
      obtain rfl : e = f := by simpa using h s
      have hrests : rest = rest' := by
        apply ih hrest hrest'
        intro symbol
        by_cases hsymbol : symbol = s
        · rw [hsymbol, lookup_eq_none_of_lt hs, lookup_eq_none_of_lt ht]
        · simpa [hsymbol] using h symbol
      rw [hrests]

/-- A symbol has an entry exactly when its exponent is not zero. -/
theorem ZeroFree.lookup_eq (h : u.ZeroFree) (symbol : String) :
    u.entries.lookup symbol =
      if (u.exponent symbol).isZero then none else some (u.exponent symbol) := by
  unfold exponent
  cases hl : u.entries.lookup symbol with
  | none => rfl
  | some e =>
    have he : e.isZero = false := h _ (mem_of_lookup hl)
    simp [he]

theorem Ordered.ext (hu : u.Ordered) (hv : v.Ordered) (hu' : u.ZeroFree) (hv' : v.ZeroFree)
    (h : ∀ symbol, u.exponent symbol = v.exponent symbol) : u = v := by
  have hentries : u.entries = v.entries := by
    apply eq_of_lookup hu hv
    intro symbol
    rw [hu'.lookup_eq, hv'.lookup_eq, h symbol]
  cases u
  cases v
  exact congrArg CompoundUnit.mk hentries

theorem Canonical.ext (hu : u.Canonical) (hv : v.Canonical)
    (h : ∀ symbol, u.exponent symbol = v.exponent symbol) : u = v :=
  hu.ordered.ext hv.ordered hu.zeroFree hv.zeroFree h

theorem sameEntries_self (entries : List (String × Exponent)) :
    sameEntries entries entries = true := by
  induction entries with
  | nil => rfl
  | cons first rest ih => simp [sameEntries, Exponent.sameValue, ih]

theorem sameUnit_self (u : CompoundUnit) : u.sameUnit u = true :=
  sameEntries_self u.entries

theorem sameEntries_comm (entries others : List (String × Exponent)) :
    sameEntries entries others = sameEntries others entries := by
  induction entries generalizing others with
  | nil => cases others <;> rfl
  | cons first rest ih =>
    cases others with
    | nil => rfl
    | cons first' rest' =>
      have hvalue : first.2.sameValue first'.2 = first'.2.sameValue first.2 :=
        decide_eq_decide.2 eq_comm
      simp only [sameEntries, ih rest', hvalue, Bool.beq_comm (a := first.1)]

theorem sameUnit_comm (u v : CompoundUnit) : u.sameUnit v = v.sameUnit u :=
  sameEntries_comm u.entries v.entries

theorem isDimensionless_iff_symbols : u.isDimensionless = true ↔ u.symbols = [] := by
  simp [isDimensionless, symbols]

theorem isDimensionless_of_sameUnit (h : u.sameUnit v = true) :
    u.isDimensionless = v.isDimensionless := by
  obtain ⟨entries⟩ := u
  obtain ⟨others⟩ := v
  cases entries <;> cases others <;> first | rfl | cases h

theorem Canonical.sameUnit_iff_eq (hu : u.Canonical) (hv : v.Canonical) :
    u.sameUnit v = true ↔ u = v := by
  constructor
  · exact eq_of_sameUnit hu.reduced hv.reduced
  · rintro rfl
    exact sameUnit_self u

theorem Canonical.sameUnit_iff (hu : u.Canonical) (hv : v.Canonical) :
    u.sameUnit v = true ↔
      ∀ symbol, (u.exponent symbol).sameValue (v.exponent symbol) = true := by
  rw [hu.sameUnit_iff_eq hv]
  constructor
  · rintro rfl symbol
    exact decide_eq_true rfl
  · intro h
    apply hu.ext hv
    intro symbol
    exact Exponent.eq_of_sameValue (hu.reduced.exponent symbol) (hv.reduced.exponent symbol)
      (h symbol)

theorem Canonical.isDimensionless_iff (hu : u.Canonical) :
    u.isDimensionless = true ↔ ∀ symbol, (u.exponent symbol).isZero = true := by
  rw [isDimensionless, List.isEmpty_iff]
  constructor
  · intro h symbol
    rw [exponent, h]
    rfl
  · intro h
    apply eq_of_lookup hu.ordered List.Pairwise.nil
    intro symbol
    rw [hu.zeroFree.lookup_eq, if_pos (h symbol)]
    rfl

end Extensionality

end QuantityCalculus.CompoundUnit
