import QuantityCalculus.Proofs.CompoundUnit.Unambiguous
import QuantityCalculus.Proofs.Interchange.Value

/-!
Fractions in documents. They are kept as they are written, in lowest terms or not, whereas the
builder of units reduces what it is given. So a unit that is read may be the same as one that is
built and still have another text.
-/
namespace QuantityCalculus

namespace Exponent

variable {e : Exponent}

/-- Every zero counts as that of a symbol without an entry. -/
def pruned (e : Exponent) : Exponent :=
  if e.isZero then zero else e

theorem eq_toDatum_of_ofDatum? {d : Datum} (h : ofDatum? d = some e) : d = e.toDatum := by
  unfold ofDatum? at h
  split at h
  · obtain rfl := (ofDatum?_pair_eq_some_iff.1 h).2
    rfl
  · cases h

end Exponent

namespace CompoundUnit

variable {u v : CompoundUnit} {fields entries : List (String × Exponent)} {symbol : String}
variable {e : Exponent}

/-- The document that holds these fractions. -/
def document (fields : List (String × Exponent)) : Datum :=
  .record (fields.map fun (symbol, e) => (symbol, e.toDatum))

/-- Where a symbol is written more than once, its last fraction counts. -/
def latest (fields : List (String × Exponent)) : List (String × Exponent) :=
  fields.foldl (fun kept (symbol, e) => insertEntry symbol e kept) []

/-- The fractions taken up one after the other. -/
def ofFractions (entries : List (String × Exponent)) : CompoundUnit :=
  entries.foldl (fun u (symbol, e) => u.accumulate symbol e) dimensionless

section Documents

theorem pairwise_latest (fields : List (String × Exponent)) :
    (latest fields).Pairwise fun p q => p.1 < q.1 :=
  List.foldlRecOn fields _ List.Pairwise.nil fun _ h field _ =>
    pairwise_insertEntry h field.1 field.2

theorem mem_latest {entry : String × Exponent} (h : entry ∈ latest fields) : entry ∈ fields := by
  have hkept : ∀ entry ∈ latest fields, entry ∈ fields := by
    refine List.foldlRecOn (motive := fun kept => ∀ entry ∈ kept, entry ∈ fields) fields _ nofun ?_
    intro kept hkept field hfield entry hm
    rcases mem_insertEntry hm with rfl | hm
    · exact hfield
    · exact hkept entry hm
  exact hkept entry h

theorem foldl_insertEntry {before after : List (String × Exponent)}
    (h : (before ++ after).Pairwise fun p q => p.1 < q.1) :
    after.foldl (fun kept (symbol, e) => insertEntry symbol e kept) before = before ++ after := by
  induction after generalizing before with
  | nil => rw [List.foldl_nil, List.append_nil]
  | cons field rest ih =>
    obtain ⟨s, f⟩ := field
    have hlast : ∀ entry ∈ before, entry.1 < s := fun entry hm =>
      (List.pairwise_append.1 h).2.2 entry hm (s, f) List.mem_cons_self
    simp only [List.foldl_cons, insertEntry_of_forall_lt hlast]
    rw [ih (List.append_cons .. ▸ h), ← List.append_cons]

theorem latest_of_pairwise (h : entries.Pairwise fun p q => p.1 < q.1) :
    latest entries = entries :=
  @foldl_insertEntry [] entries h

/-- An exponent is stored unless it is zero. -/
theorem exponent_foldl_set {kept : List (String × Exponent)}
    (h : ∀ symbol, u.exponent symbol = ((kept.lookup symbol).getD .zero).pruned) (symbol : String) :
    (fields.foldl (fun u (symbol, e) => u.set symbol e) u).exponent symbol =
      (((fields.foldl (fun kept (symbol, e) => insertEntry symbol e kept) kept).lookup
        symbol).getD .zero).pruned := by
  induction fields generalizing u kept with
  | nil => exact h symbol
  | cons field rest ih =>
    obtain ⟨s, f⟩ := field
    refine ih ?_
    intro other
    rw [exponent_set, lookup_insertEntry]
    by_cases heq : other = s
    · rw [if_pos heq, if_pos heq]
      rfl
    · rw [if_neg heq, if_neg heq]
      exact h other

theorem exponent_ofEntries (fields : List (String × Exponent)) (symbol : String) :
    (ofEntries fields).exponent symbol = (((latest fields).lookup symbol).getD .zero).pruned :=
  exponent_foldl_set (fun _ => rfl) symbol

theorem ordered_ofEntries (fields : List (String × Exponent)) : (ofEntries fields).Ordered :=
  ofEntries_induction List.Pairwise.nil fun _ h _ _ => h.set _ _

theorem zeroFree_ofEntries (fields : List (String × Exponent)) : (ofEntries fields).ZeroFree :=
  ofEntries_induction zeroFree_dimensionless fun _ h _ _ => h.set _ _

/-- Fractions that are written over make no difference. -/
theorem ofEntries_latest (fields : List (String × Exponent)) :
    ofEntries (latest fields) = ofEntries fields := by
  apply (ordered_ofEntries _).ext (ordered_ofEntries _) (zeroFree_ofEntries _)
    (zeroFree_ofEntries _)
  intro symbol
  rw [exponent_ofEntries, exponent_ofEntries, latest_of_pairwise (pairwise_latest fields)]

theorem document_injective {others : List (String × Exponent)}
    (h : document fields = document others) : fields = others := by
  refine List.map_injective_iff.2 ?_ (Datum.record.inj h)
  rintro ⟨s, n, d⟩ ⟨t, m, c⟩ heq
  simpa [Exponent.toDatum] using heq

theorem ofDatum?_eq_some_iff {d : Datum} :
    ofDatum? d = some u ↔ ∃ fields, d = document fields ∧
      (∀ field ∈ fields, field.2.Exchangeable) ∧ u = ofEntries (latest fields) := by
  constructor
  · intro h
    unfold ofDatum? at h
    split at h
    · rename_i written
      obtain ⟨fields, hfields, h⟩ := Option.bind_eq_some_iff.1 h
      obtain rfl := Option.some.inj h
      have hread (written : String × Datum) (field : String × Exponent)
          (h : (do return (written.1, ← Exponent.ofDatum? written.2)) = some field) :
          written = (field.1, field.2.toDatum) ∧ field.2.Exchangeable := by
        obtain ⟨e, hd, h⟩ := Option.bind_eq_some_iff.1 h
        obtain rfl := Option.some.inj h
        exact ⟨congrArg (Prod.mk written.1) (Exponent.eq_toDatum_of_ofDatum? hd),
          Exponent.exchangeable_of_ofDatum? hd⟩
      have hwritten : List.Forall₂ (fun d field => d = (field.1, field.2.toDatum)) written fields :=
        (Lists.mapM_eq_some hfields).imp fun d field h => (hread d field h).1
      refine ⟨fields, congrArg Datum.record ?_, ?_, (ofEntries_latest fields).symm⟩
      · exact List.forall₂_eq_eq_eq ▸ List.forall₂_map_right_iff.2 hwritten
      · exact Lists.forall_of_mapM_eq_some hfields fun d field h => (hread d field h).2
    · cases h
  · rintro ⟨fields, rfl, hfields, rfl⟩
    rw [ofEntries_latest, document, ofDatum?, Lists.mapM_map_eq_self]
    · rfl
    · intro field hm
      have he := Exponent.ofDatum?_toDatum (hfields field hm)
      simp only [he]
      rfl

end Documents

section Builder

/-- What is taken up for a new symbol is stored as it is. -/
theorem accumulate_fresh (hu : u.exponent symbol = .zero) (he : e.Reduced) (hr : e.InRange) :
    u.accumulate symbol e = u.set symbol e := by
  rw [accumulate, accumulate?, hu, Exponent.zero_add? he.proper hr, he.reduce?_self hr,
    Option.map_some, Option.getD_some]

theorem foldl_accumulate (hs : (entries.map Prod.fst).Nodup)
    (he : ∀ entry ∈ entries, entry.2.Reduced ∧ entry.2.InRange)
    (hu : ∀ entry ∈ entries, u.exponent entry.1 = .zero) :
    entries.foldl (fun u (symbol, e) => u.accumulate symbol e) u =
      entries.foldl (fun u (symbol, e) => u.set symbol e) u := by
  induction entries generalizing u with
  | nil => rfl
  | cons entry rest ih =>
    obtain ⟨s, f⟩ := entry
    obtain ⟨hnew, hrest⟩ := List.nodup_cons.1 hs
    obtain ⟨hf, hothers⟩ := List.forall_mem_cons.1 he
    obtain ⟨hzero, hzeros⟩ := List.forall_mem_cons.1 hu
    simp only [List.foldl_cons, accumulate_fresh hzero hf.1 hf.2]
    refine ih hrest hothers ?_
    intro entry hm
    have hne : entry.1 ≠ s := fun heq => hnew (List.mem_map.2 ⟨entry, hm, heq⟩)
    rw [exponent_set, if_neg hne, hzeros entry hm]

theorem ofFractions_eq_ofEntries (hs : (entries.map Prod.fst).Nodup)
    (he : ∀ entry ∈ entries, entry.2.Reduced ∧ entry.2.InRange) :
    ofFractions entries = ofEntries entries :=
  foldl_accumulate hs he fun _ _ => rfl

end Builder

section LowestTerms

theorem insertEntry_lowestEntries (symbol : String) (e : Exponent)
    (entries : List (String × Exponent)) :
    insertEntry symbol e.lowest (lowestEntries entries) =
      lowestEntries (insertEntry symbol e entries) := by
  induction entries with
  | nil => rfl
  | cons entry rest ih =>
    obtain ⟨s, f⟩ := entry
    change insertEntry symbol e.lowest ((s, f.lowest) :: lowestEntries rest) = _
    rw [insertEntry, insertEntry, ih]
    split
    · rfl
    · split <;> rfl

theorem eraseEntry_lowestEntries (symbol : String) (entries : List (String × Exponent)) :
    eraseEntry symbol (lowestEntries entries) = lowestEntries (eraseEntry symbol entries) :=
  List.filter_map

theorem set_lowestTerms (u : CompoundUnit) (symbol : String) (he : e.Proper) :
    u.lowestTerms.set symbol e.lowest = (u.set symbol e).lowestTerms := by
  unfold set
  rw [he.isZero_lowest]
  split
  · exact congrArg mk (eraseEntry_lowestEntries symbol u.entries)
  · exact congrArg mk (insertEntry_lowestEntries symbol e u.entries)

theorem foldl_set_lowestEntries (he : ∀ entry ∈ entries, entry.2.Proper) :
    (lowestEntries entries).foldl (fun u (symbol, e) => u.set symbol e) u.lowestTerms =
      (entries.foldl (fun u (symbol, e) => u.set symbol e) u).lowestTerms := by
  induction entries generalizing u with
  | nil => rfl
  | cons entry rest ih =>
    obtain ⟨s, f⟩ := entry
    obtain ⟨hf, hrest⟩ := List.forall_mem_cons.1 he
    have hset : u.lowestTerms.set s f.lowest = (u.set s f).lowestTerms := set_lowestTerms u s hf
    rw [List.foldl_cons, ← ih hrest, ← hset]
    rfl

theorem ofEntries_lowestEntries (he : ∀ entry ∈ entries, entry.2.Proper) :
    ofEntries (lowestEntries entries) = (ofEntries entries).lowestTerms :=
  foldl_set_lowestEntries (u := dimensionless) he

end LowestTerms

/-- The builder makes the unit in lowest terms from the fractions of a document. -/
theorem ofFractions_latest (he : ∀ field ∈ fields, field.2.Exchangeable)
    (hr : ∀ field ∈ latest fields, Representable field.2.ratio) :
    ofFractions (lowestEntries (latest fields)) = (ofEntries (latest fields)).lowestTerms := by
  have hproper : ∀ field ∈ latest fields, field.2.Proper := fun field hm =>
    (he field (mem_latest hm)).2
  rw [ofFractions_eq_ofEntries, ofEntries_lowestEntries hproper]
  · rw [map_fst_lowestEntries, List.nodup_iff_pairwise_ne, List.pairwise_map]
    refine (pairwise_latest fields).imp ?_
    intro p q hlt heq
    exact String.lt_irrefl q.1 (heq ▸ hlt)
  · rw [forall_mem_lowestEntries fun e => e.Reduced ∧ e.InRange]
    intro field hm
    exact ⟨(hproper field hm).reduced_lowest, (hproper field hm).representable_iff.1 (hr field hm)⟩

theorem symbols_of_sameEntries {others : List (String × Exponent)}
    (h : sameEntries entries others = true) : entries.map Prod.fst = others.map Prod.fst := by
  induction entries generalizing others with
  | nil =>
    cases others with
    | nil => rfl
    | cons => cases h
  | cons entry rest ih =>
    cases others with
    | nil => cases h
    | cons entry' rest' =>
      simp only [sameEntries, Bool.and_eq_true, beq_iff_eq] at h
      rw [List.map_cons, List.map_cons, h.1.1, ih h.2]

theorem text_eq_iff_of_sameUnit (h : u.sameUnit v = true) : u.text = v.text ↔ u = v :=
  text_eq_iff_of_symbols (symbols_of_sameEntries h)

/-- A document gives the unit that is written in it, the last fraction of each symbol as it stands.
The builder makes the same unit from these fractions in lowest terms, where they fit in words, but
with the same text only if no fraction was unreduced. Two units that are the same have the same text
only if the same fractions are stored in them. -/
theorem fractions_kept_as_written (u : CompoundUnit) :
    (∀ d, ofDatum? d = some u ↔ ∃ fields, d = document fields ∧
      (∀ field ∈ fields, field.2.Exchangeable) ∧ u = ofEntries (latest fields)) ∧
    (∀ fields, ofDatum? (document fields) = some u →
      (∀ field ∈ latest fields, Representable field.2.ratio) →
      let v := ofFractions (lowestEntries (latest fields))
      v.Canonical ∧ u.sameUnit v = true ∧ (u.text = v.text ↔ u.Reduced) ∧ (u = v ↔ u.Reduced)) ∧
    ∀ v : CompoundUnit, u.sameUnit v = true → (u.text = v.text ↔ u = v) := by
  refine ⟨fun _ => ofDatum?_eq_some_iff, ?_, fun _ => text_eq_iff_of_sameUnit⟩
  intro fields h hr v
  have hu : u.Exchangeable := exchangeable_of_ofDatum? h
  obtain ⟨fields', hdocument, he, rfl⟩ := ofDatum?_eq_some_iff.1 h
  obtain rfl : fields = fields' := document_injective hdocument
  have hv : v = (ofEntries (latest fields)).lowestTerms := ofFractions_latest he hr
  have hsame : (ofEntries (latest fields)).sameUnit v = true := hv ▸ hu.proper.sameUnit_lowestTerms
  have hreduced : ofEntries (latest fields) = v ↔ (ofEntries (latest fields)).Reduced :=
    hv ▸ hu.eq_lowestTerms_iff
  exact ⟨hv ▸ hu.canonical_lowestTerms, hsame,
    (text_eq_iff_of_sameUnit hsame).trans hreduced, hreduced⟩

/-- A negative denominator, a fraction that was written over, a zero and a fraction that is an
integer. -/
theorem fractions_kept_as_written_sample :
    let fields := [("s", ⟨1, -2⟩), ("m", ⟨3, 1⟩), ("kg", ⟨0, -5⟩), ("m", ⟨4, 2⟩)]
    let u : CompoundUnit := ⟨[("m", ⟨4, 2⟩), ("s", ⟨1, -2⟩)]⟩
    let v : CompoundUnit := ⟨[("m", ⟨2, 1⟩), ("s", ⟨-1, 2⟩)]⟩
    ofDatum? (document fields) = some u ∧
      ofFractions [("kg", ⟨0, 1⟩), ("m", ⟨2, 1⟩), ("s", ⟨-1, 2⟩)] = v ∧
      u.sameUnit v = true ∧ u.text ≠ v.text := by
  intro fields u v
  obtain ⟨hread, hbuilt, -⟩ := fractions_kept_as_written u
  have he : ∀ field ∈ fields, field.2.Exchangeable := by decide
  have hrange : ∀ field ∈ latest fields, field.2.lowest.InRange := by decide
  have hr : ∀ field ∈ latest fields, Representable field.2.ratio := by
    intro field hm
    have hproper : field.2.Proper := (he field (mem_latest hm)).2
    exact hproper.representable_iff.2 (hrange field hm)
  have hu : ofDatum? (document fields) = some u := (hread _).2 ⟨fields, rfl, he, by decide⟩
  have hlowest : lowestEntries (latest fields) =
      [("kg", ⟨0, 1⟩), ("m", ⟨2, 1⟩), ("s", ⟨-1, 2⟩)] := by decide
  have hv : ofFractions [("kg", ⟨0, 1⟩), ("m", ⟨2, 1⟩), ("s", ⟨-1, 2⟩)] = v := by decide
  obtain ⟨-, hsame, hiff, -⟩ := hbuilt fields hu hr
  rw [hlowest, hv] at hsame hiff
  exact ⟨hu, hv, hsame, mt hiff.1 (by decide)⟩

/-- A square of a length that is read keeps its fraction in its text, which is not read as a unit,
although the unit is the same as the square that is built. -/
theorem unreduced_fraction_shown :
    let u : CompoundUnit := ⟨[("m", ⟨4, 2⟩)]⟩
    let v := ofFractions [("m", ⟨2, 1⟩)]
    ofDatum? (.record [("m", .list [.integer 4, .integer 2])]) = some u ∧
      u.sameUnit v = true ∧ u.text = "m^(4/2)" ∧ v.text = "m2" ∧
      read u.text = .error (.expected 1 .separator) ∧ read v.text = .ok v := by
  decide

end CompoundUnit

end QuantityCalculus
