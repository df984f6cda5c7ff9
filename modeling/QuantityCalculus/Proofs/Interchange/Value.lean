import QuantityCalculus.Interchange.Value
import QuantityCalculus.Proofs.CompoundUnit.LowestTerms
import QuantityCalculus.Proofs.Interchange.Datum
import QuantityCalculus.Proofs.Lists

/-!
Units and values are read back from their documents as they were written, and no others are ever
read. For a double the claim is limited to the finite ones, which alone can be written down.
-/
namespace QuantityCalculus

open Datum

namespace Exponent

theorem ofDatum?_pair_eq_some_iff {n d : Int} {e : Exponent} :
    ofDatum? (.list [.integer n, .integer d]) = some e ↔ e.Exchangeable ∧ ⟨n, d⟩ = e := by
  simp only [ofDatum?, Option.bind_eq_bind, Option.bind_eq_some_iff, inWord?_eq_some_iff,
    Option.ite_none_left_eq_some, Option.some.injEq]
  constructor
  · rintro ⟨_, ⟨hn, rfl⟩, _, ⟨hd, rfl⟩, hz, rfl⟩
    exact ⟨⟨⟨hn, hd⟩, hz⟩, rfl⟩
  · rintro ⟨⟨⟨hn, hd⟩, hz⟩, rfl⟩
    exact ⟨n, ⟨hn, rfl⟩, d, ⟨hd, rfl⟩, hz, rfl⟩

theorem ofDatum?_toDatum {e : Exponent} (h : e.Exchangeable) : ofDatum? e.toDatum = some e :=
  ofDatum?_pair_eq_some_iff.2 ⟨h, rfl⟩

theorem exchangeable_of_ofDatum? {d : Datum} {e : Exponent} (h : ofDatum? d = some e) :
    e.Exchangeable := by
  unfold ofDatum? at h
  split at h
  · exact (ofDatum?_pair_eq_some_iff.1 h).1
  · cases h

end Exponent

namespace CompoundUnit

variable {u : CompoundUnit}

theorem exchangeable_dimensionless : dimensionless.Exchangeable := by
  decide

theorem Exchangeable.set (h : u.Exchangeable) {symbol : String} {e : Exponent}
    (he : e.Exchangeable) : (u.set symbol e).Exchangeable where
  ordered := h.ordered.set symbol e
  zeroFree := h.zeroFree.set symbol e
  exponents entry hm := by
    rcases mem_set hm with rfl | hm
    · exact he
    · exact h.exponents entry hm

theorem exchangeable_ofEntries {entries : List (String × Exponent)}
    (h : ∀ entry ∈ entries, entry.2.Exchangeable) : (ofEntries entries).Exchangeable :=
  ofEntries_induction exchangeable_dimensionless fun _ hu entry hm => hu.set (h entry hm)

theorem ofDatum?_toDatum (h : u.Exchangeable) : ofDatum? u.toDatum = some u := by
  rw [toDatum, ofDatum?, Lists.mapM_map_eq_self]
  · exact congrArg some (ofEntries_entries h.ordered h.zeroFree)
  · intro entry hm
    have he := Exponent.ofDatum?_toDatum (h.exponents entry hm)
    simp only [he]
    rfl

theorem exchangeable_of_ofDatum? {d : Datum} (h : ofDatum? d = some u) : u.Exchangeable := by
  unfold ofDatum? at h
  split at h
  · obtain ⟨entries, hentries, h⟩ := Option.bind_eq_some_iff.1 h
    obtain rfl := Option.some.inj h
    refine exchangeable_ofEntries (Lists.forall_of_mapM_eq_some hentries ?_)
    rintro ⟨symbol, d⟩ entry he
    obtain ⟨e, hd, he⟩ := Option.bind_eq_some_iff.1 he
    obtain rfl := Option.some.inj he
    exact Exponent.exchangeable_of_ofDatum? hd
  · cases h

end CompoundUnit

@[simp] theorem Kind.named?_text (kind : Kind) : named? Kind.all Kind.text kind.text = some kind :=
  named?_eq_some (by decide) (by cases kind <;> decide)

namespace Shape

def Exchangeable (s : Shape) : Prop :=
  IsSize s.rows ∧ IsSize s.cols

instance (s : Shape) : Decidable s.Exchangeable :=
  inferInstanceAs (Decidable (_ ∧ _))

theorem ofDatum?_record (rows cols : Datum) :
    ofDatum? (.record [("rows", rows), ("cols", cols)]) =
      (do return ⟨← rows.size?, ← cols.size?⟩) := by
  simp [ofDatum?]

theorem ofDatum?_toDatum {s : Shape} (h : s.Exchangeable) : ofDatum? s.toDatum = some s := by
  rw [toDatum, ofDatum?_record, size?_ofSize h.1, size?_ofSize h.2]
  rfl

end Shape

namespace Matrix

/-- All cells hold finite numbers. -/
def Finite (m : Matrix) : Prop :=
  ∀ row ∈ m.cells, ∀ x ∈ row, x.isFinite = true

instance (m : Matrix) : Decidable m.Finite :=
  inferInstanceAs (Decidable (∀ row ∈ m.cells, ∀ x ∈ row, x.isFinite = true))

variable {m : Matrix}

theorem ofDatum?_record (rows cols cells : Datum) :
    ofDatum? (.record [("rows", rows), ("cols", cols), ("cells", cells)]) =
      (do return ⟨← rows.size?, ← cols.size?, ← cellsOfDatum? cells⟩) := by
  simp [ofDatum?]

/-- The sizes that are written need not be those of the cells. -/
theorem ofDatum?_toDatum (h : m.shape.Exchangeable) (hf : m.Finite) :
    ofDatum? m.toDatum = some m := by
  have hrow (row : List Float) (hr : row ∈ m.cells) :
      rowOfDatum? (.list (row.map ofFloat)) = some row :=
    Lists.mapM_map_eq_self fun x hx => float?_ofFloat (hf row hr x hx)
  have hcells : cellsOfDatum? (.list (m.cells.map fun row => .list (row.map ofFloat))) =
      some m.cells :=
    Lists.mapM_map_eq_self hrow
  have hrows : (ofSize m.rows).size? = some m.rows := size?_ofSize h.1
  have hcols : (ofSize m.cols).size? = some m.cols := size?_ofSize h.2
  rw [toDatum, ofDatum?_record, hrows, hcols, hcells]
  rfl

theorem exchangeable_shape_of_ofDatum? {d : Datum} (h : ofDatum? d = some m) :
    m.shape.Exchangeable := by
  simp only [ofDatum?, Option.bind_eq_bind, Option.bind_eq_some_iff] at h
  obtain ⟨_, -, _, -, _, -, rows, hrows, cols, hcols, cells, -, h⟩ := h
  obtain rfl := Option.some.inj h
  exact ⟨isSize_of_size? hrows, isSize_of_size? hcols⟩

end Matrix

theorem Datum.adjacent?_adjacent (tag : Kind) (contents : Datum) :
    (adjacent tag contents).adjacent? = some (tag, contents) := by
  simp [adjacent?, adjacentTag?, adjacent, Kind.ofDatum?]

namespace Quantity

def Finite : Quantity → Prop
  | .number x => x.isFinite = true
  | .matrix m => m.Finite

instance (q : Quantity) : Decidable q.Finite :=
  match q with
  | .number x => inferInstanceAs (Decidable (x.isFinite = true))
  | .matrix m => inferInstanceAs (Decidable m.Finite)

def Exchangeable : Quantity → Prop
  | .number x => x.isFinite = true
  | .matrix m => m.shape.Exchangeable ∧ m.Finite

instance (q : Quantity) : Decidable q.Exchangeable :=
  match q with
  | .number x => inferInstanceAs (Decidable (x.isFinite = true))
  | .matrix _ => inferInstanceAs (Decidable (_ ∧ _))

variable {q : Quantity}

theorem Exchangeable.finite (h : q.Exchangeable) : q.Finite := by
  cases q with
  | number x => exact h
  | matrix m => exact h.2

theorem ofDatum?_adjacent (tag : Kind) (contents : Datum) :
    ofDatum? (adjacent tag contents) =
      match tag with
      | .number => contents.float?.map .number
      | .matrix => (Matrix.ofDatum? contents).map .matrix
      | .unit => none := by
  rw [ofDatum?, adjacent?_adjacent]
  cases tag <;> simp [Option.map_eq_bind]

theorem ofDatum?_toDatum (h : q.Exchangeable) : ofDatum? q.toDatum = some q := by
  cases q with
  | number x => rw [toDatum, ofDatum?_adjacent, float?_ofFloat h, Option.map_some]
  | matrix m => rw [toDatum, ofDatum?_adjacent, Matrix.ofDatum?_toDatum h.1 h.2, Option.map_some]

theorem exchangeable_of_ofDatum? {d : Datum} (h : ofDatum? d = some q) (hf : q.Finite) :
    q.Exchangeable := by
  obtain ⟨⟨tag, contents⟩, -, h⟩ := Option.bind_eq_some_iff.1 h
  cases tag with
  | number =>
    obtain ⟨x, -, h⟩ := Option.bind_eq_some_iff.1 h
    obtain rfl := Option.some.inj h
    exact hf
  | matrix =>
    obtain ⟨m, hm, h⟩ := Option.bind_eq_some_iff.1 h
    obtain rfl := Option.some.inj h
    exact ⟨Matrix.exchangeable_shape_of_ofDatum? hm, hf⟩
  | unit => cases h

end Quantity

namespace Value

def Exchangeable (v : Value) : Prop :=
  v.units.Exchangeable ∧ v.quantity.Exchangeable

instance (v : Value) : Decidable v.Exchangeable :=
  inferInstanceAs (Decidable (_ ∧ _))

variable {v : Value}

theorem measuredOfDatum?_record (units quantity : Datum) :
    measuredOfDatum? (.record [("units", units), ("value", quantity)]) =
      (do return .measured (← CompoundUnit.ofDatum? units) (← Quantity.ofDatum? quantity)) := by
  simp [measuredOfDatum?]

theorem ofDatum?_adjacent (tag : Kind) (contents : Datum) :
    ofDatum? (adjacent tag contents) =
      match tag with
      | .number => contents.float?.map .number
      | .matrix => (Matrix.ofDatum? contents).map .matrix
      | .unit => measuredOfDatum? contents := by
  rw [ofDatum?, adjacent?_adjacent]
  cases tag <;> simp [Option.map_eq_bind]

theorem ofDatum?_toDatum (h : v.Exchangeable) : ofDatum? v.toDatum = some v := by
  obtain ⟨hu, hq⟩ := h
  cases v with
  | number x =>
    have hx : x.isFinite = true := hq
    rw [toDatum, ofDatum?_adjacent, float?_ofFloat hx, Option.map_some]
  | matrix m =>
    have hm : Matrix.ofDatum? m.toDatum = some m := Matrix.ofDatum?_toDatum hq.1 hq.2
    rw [toDatum, ofDatum?_adjacent, hm, Option.map_some]
  | measured units quantity =>
    have hunits : CompoundUnit.ofDatum? units.toDatum = some units :=
      CompoundUnit.ofDatum?_toDatum hu
    have hquantity : Quantity.ofDatum? quantity.toDatum = some quantity :=
      Quantity.ofDatum?_toDatum hq
    rw [toDatum, ofDatum?_adjacent, measuredOfDatum?_record, hunits, hquantity]
    rfl

theorem exchangeable_of_ofDatum? {d : Datum} (h : ofDatum? d = some v) :
    v.units.Exchangeable ∧ (v.quantity.Finite → v.quantity.Exchangeable) := by
  obtain ⟨⟨tag, contents⟩, -, h⟩ := Option.bind_eq_some_iff.1 h
  cases tag with
  | number =>
    obtain ⟨x, -, h⟩ := Option.bind_eq_some_iff.1 h
    obtain rfl := Option.some.inj h
    exact ⟨CompoundUnit.exchangeable_dimensionless, id⟩
  | matrix =>
    obtain ⟨m, hm, h⟩ := Option.bind_eq_some_iff.1 h
    obtain rfl := Option.some.inj h
    have hshape := Matrix.exchangeable_shape_of_ofDatum? hm
    exact ⟨CompoundUnit.exchangeable_dimensionless, fun hf => ⟨hshape, hf⟩⟩
  | unit =>
    simp only [measuredOfDatum?, Option.bind_eq_bind, Option.bind_eq_some_iff] at h
    obtain ⟨_, -, _, -, units, hu, quantity, hq, h⟩ := h
    obtain rfl := Option.some.inj h
    exact ⟨CompoundUnit.exchangeable_of_ofDatum? hu, Quantity.exchangeable_of_ofDatum? hq⟩

end Value

end QuantityCalculus
