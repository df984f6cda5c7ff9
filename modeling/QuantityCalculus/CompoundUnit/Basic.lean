import QuantityCalculus.Exponent

/-!
Compound units: products of powers of unit symbols, held as a list of symbols with their
exponents. The list is ordered by symbol and a zero exponent is never stored, so a symbol
without an entry has exponent zero.
-/
namespace QuantityCalculus

structure CompoundUnit where
  entries : List (String × Exponent)
  deriving DecidableEq, Repr

namespace CompoundUnit

/-- The unit of bare numbers. -/
def dimensionless : CompoundUnit :=
  ⟨[]⟩

def isDimensionless (u : CompoundUnit) : Bool :=
  u.entries.isEmpty

def size (u : CompoundUnit) : Nat :=
  u.entries.length

def symbols (u : CompoundUnit) : List String :=
  u.entries.map Prod.fst

def exponent (u : CompoundUnit) (symbol : String) : Exponent :=
  (u.entries.lookup symbol).getD .zero

def insertEntry (symbol : String) (e : Exponent) : List (String × Exponent) → List (String × Exponent)
  | [] => [(symbol, e)]
  | (s, f) :: rest =>
    if symbol < s then (symbol, e) :: (s, f) :: rest
    else if symbol = s then (symbol, e) :: rest
    else (s, f) :: insertEntry symbol e rest

def eraseEntry (symbol : String) (entries : List (String × Exponent)) : List (String × Exponent) :=
  entries.filter fun entry => entry.1 ≠ symbol

/-- Setting an exponent to zero removes the entry. -/
def set (u : CompoundUnit) (symbol : String) (e : Exponent) : CompoundUnit :=
  if e.isZero then ⟨eraseEntry symbol u.entries⟩ else ⟨insertEntry symbol e u.entries⟩

theorem lookup_entry_cons (symbol other : String) (e : Exponent)
    (entries : List (String × Exponent)) :
    ((symbol, e) :: entries).lookup other =
      if other = symbol then some e else entries.lookup other := by
  rw [List.lookup_cons]
  split <;> simp_all

theorem lookup_insertEntry (symbol other : String) (e : Exponent)
    (entries : List (String × Exponent)) :
    (insertEntry symbol e entries).lookup other =
      if other = symbol then some e else entries.lookup other := by
  induction entries with
  | nil => rw [insertEntry, lookup_entry_cons]
  | cons first rest ih =>
    obtain ⟨s, f⟩ := first
    unfold insertEntry
    split
    · rw [lookup_entry_cons]
    · split
      · rename_i h
        subst h
        simp only [lookup_entry_cons]
        split <;> rfl
      · rename_i h
        simp only [lookup_entry_cons, ih]
        by_cases ho : other = symbol
        · simp [ho, h]
        · simp [ho]

theorem lookup_eraseEntry (symbol other : String) (entries : List (String × Exponent)) :
    (eraseEntry symbol entries).lookup other =
      if other = symbol then none else entries.lookup other := by
  induction entries with
  | nil => simp [eraseEntry]
  | cons first rest ih =>
    obtain ⟨s, f⟩ := first
    by_cases hs : s = symbol
    · subst hs
      have : eraseEntry s ((s, f) :: rest) = eraseEntry s rest := by simp [eraseEntry]
      rw [this, ih, lookup_entry_cons]
      split <;> rfl
    · have : eraseEntry symbol ((s, f) :: rest) = (s, f) :: eraseEntry symbol rest := by
        simp [eraseEntry, hs]
      rw [this]
      simp only [lookup_entry_cons, ih]
      by_cases ho : other = symbol
      · simp [ho, Ne.symm hs]
      · simp [ho]

/-- A zero exponent reads as zero whatever its denominator was. -/
theorem exponent_set (u : CompoundUnit) (symbol other : String) (e : Exponent) :
    (u.set symbol e).exponent other =
      if other = symbol then if e.isZero then .zero else e else u.exponent other := by
  unfold set exponent
  by_cases he : e.isZero
  · by_cases ho : other = symbol <;> simp [he, ho, lookup_eraseEntry]
  · by_cases ho : other = symbol <;> simp [he, ho, lookup_insertEntry]

/-- Adds to the exponent of one symbol, unless the sum leaves the range. -/
def accumulate? (u : CompoundUnit) (symbol : String) (e : Exponent) : Option CompoundUnit :=
  (Exponent.add? (u.exponent symbol) e).map (u.set symbol)

/-- Adds to the exponent of one symbol; a sum that leaves the range changes nothing. -/
def accumulate (u : CompoundUnit) (symbol : String) (e : Exponent) : CompoundUnit :=
  (u.accumulate? symbol e).getD u

def base (symbol : String) : CompoundUnit :=
  dimensionless.accumulate symbol .one

def ofPowers (powers : List (String × Int)) : CompoundUnit :=
  powers.foldl (fun u (symbol, n) => u.accumulate symbol (.ofInt n)) dimensionless

/-- The entries as they are given, each symbol occurring once. -/
def ofEntries (entries : List (String × Exponent)) : CompoundUnit :=
  entries.foldl (fun u (symbol, e) => u.set symbol e) dimensionless

def sameEntries : List (String × Exponent) → List (String × Exponent) → Bool
  | [], [] => true
  | (s, e) :: rest, (t, f) :: others => s == t && e.sameValue f && sameEntries rest others
  | _, _ => false

/-- The same symbols with equal exponents. -/
def sameUnit (u v : CompoundUnit) : Bool :=
  sameEntries u.entries v.entries

end CompoundUnit

end QuantityCalculus
