import QuantityCalculus.Fault.Text
import QuantityCalculus.Proofs.CompoundUnit.Rereading
import QuantityCalculus.Proofs.Lists

/-!
The text of a unit tells it apart from every other unit. A symbol ends where its exponent begins,
and an exponent ends at the next point, so that the text can be taken apart again, also where its
exponents are fractions and it cannot be read back.
-/
namespace QuantityCalculus

open CompoundUnit

namespace Decimal

variable {m n : Int} {c : Char}

theorem natural_injective {m n : Nat} (h : natural m = natural n) : m = n := by
  have hnumeral := congrArg numeral h
  rw [numeral_natural, numeral_natural] at hnumeral
  exact_mod_cast hnumeral

theorem mem_integer (h : c ∈ integer n) : c = '-' ∨ c.isDigit = true := by
  unfold integer at h
  split at h
  · exact (List.mem_cons.1 h).imp_right ((isNumeral_natural _).2 c)
  · exact .inr ((isNumeral_natural _).2 c h)

theorem integer_ne_nil (n : Int) : integer n ≠ [] := by
  unfold integer
  split
  · exact List.cons_ne_nil _ _
  · exact (isNumeral_natural _).1

theorem natural_ne_minus {k : Nat} {rest : List Char} : natural k ≠ '-' :: rest := by
  intro h
  have hdigit := (isNumeral_natural k).2 '-' (h ▸ List.mem_cons_self)
  exact absurd hdigit (by decide)

theorem integer_injective (h : integer m = integer n) : m = n := by
  unfold integer at h
  split at h <;> split at h
  · have habs := natural_injective (List.cons.inj h).2
    omega
  · exact absurd h.symm natural_ne_minus
  · exact absurd h natural_ne_minus
  · have habs := natural_injective h
    omega

theorem fraction_injective {d d' : Int} {rest : List Char}
    (h : integer m ++ '/' :: (integer d ++ rest) = integer n ++ '/' :: (integer d' ++ rest)) :
    m = n ∧ d = d' := by
  have hslash (k : Int) : ∀ c ∈ integer k, (c != '/') = true := by
    intro c hm
    rw [bne_iff_ne]
    rintro rfl
    exact absurd (mem_integer hm) (by decide)
  obtain ⟨hm, hd⟩ := Lists.append_inj_boundary (hslash m) (hslash n) (by simp) (by simp) h
  exact ⟨integer_injective hm,
    integer_injective (List.append_cancel_right (List.cons.inj hd).2)⟩

end Decimal

namespace Exponent

variable {e f : Exponent} {c : Char}

/-- The exponents that are written as plain numbers, or not at all. -/
theorem suffix_of_isInteger (h : e.isInteger = true) :
    e.suffix = if e.isOne then [] else Decimal.integer e.numerator :=
  if_pos h

theorem suffix_of_not_isInteger (h : e.isInteger = false) :
    e.suffix = '^' :: '(' :: (Decimal.integer e.numerator ++
      '/' :: (Decimal.integer e.denominator ++ [')'])) := by
  simp [suffix, characters, h]

/-- The characters of exponents are apart from those of symbols and from the point. -/
theorem mem_suffix (h : c ∈ e.suffix) :
    c = '-' ∨ c.isDigit = true ∨ c = '^' ∨ c = '(' ∨ c = '/' ∨ c = ')' := by
  cases hinteger : e.isInteger with
  | true =>
    rw [suffix_of_isInteger hinteger] at h
    split at h
    · cases h
    · exact (Decimal.mem_integer h).imp_right .inl
  | false =>
    rw [suffix_of_not_isInteger hinteger] at h
    simp only [List.mem_cons, List.mem_append, List.not_mem_nil, or_false] at h
    rcases h with rfl | rfl | h | rfl | h | rfl
    · simp
    · simp
    · exact (Decimal.mem_integer h).imp_right .inl
    · simp
    · exact (Decimal.mem_integer h).imp_right .inl
    · simp

theorem ne_point_of_mem_suffix (h : c ∈ e.suffix) : c ≠ '.' := by
  rintro rfl
  exact absurd (mem_suffix h) (by decide)

theorem not_isSymbolCharacter_of_mem_suffix (h : c ∈ e.suffix) : isSymbolCharacter c = false := by
  rcases mem_suffix h with rfl | hdigit | rfl | rfl | rfl | rfl
  · rfl
  · exact Reader.isSymbolCharacter_of_isDigit hdigit
  all_goals rfl

theorem caret_not_mem_suffix (h : e.isInteger = true) : '^' ∉ e.suffix := by
  rw [suffix_of_isInteger h]
  split
  · exact List.not_mem_nil
  · intro hm
    exact absurd (Decimal.mem_integer hm) (by decide)

theorem suffix_injective (h : e.suffix = f.suffix) : e = f := by
  obtain ⟨n, d⟩ := e
  obtain ⟨n', d'⟩ := f
  cases he : isInteger ⟨n, d⟩ with
  | true =>
    have hf : isInteger ⟨n', d'⟩ = true := by
      by_contra hf
      apply caret_not_mem_suffix he
      rw [h, suffix_of_not_isInteger (Bool.not_eq_true _ ▸ hf)]
      exact List.mem_cons_self
    obtain rfl : d = 1 := of_decide_eq_true he
    obtain rfl : d' = 1 := of_decide_eq_true hf
    rw [suffix_of_isInteger he, suffix_of_isInteger hf] at h
    simp only [isOne, decide_eq_true_eq] at h
    split at h <;> split at h
    · simp_all
    · exact absurd h.symm (Decimal.integer_ne_nil n')
    · exact absurd h (Decimal.integer_ne_nil n)
    · rw [Decimal.integer_injective h]
  | false =>
    have hf : isInteger ⟨n', d'⟩ = false := by
      by_contra hf
      apply caret_not_mem_suffix (Bool.not_eq_false _ ▸ hf)
      rw [← h, suffix_of_not_isInteger he]
      exact List.mem_cons_self
    rw [suffix_of_not_isInteger he, suffix_of_not_isInteger hf] at h
    obtain ⟨rfl, rfl⟩ := Decimal.fraction_injective (List.cons.inj (List.cons.inj h).2).2
    rfl

end Exponent

namespace CompoundUnit

variable {u v : CompoundUnit} {entries others : List (String × Exponent)}

/-- The entries with a point before each of them. -/
def pointed (entries : List (String × Exponent)) : List Char :=
  entries.flatMap fun entry => '.' :: entryCharacters entry

theorem pointed_cons (symbol : String) (e : Exponent) (rest : List (String × Exponent)) :
    pointed ((symbol, e) :: rest) = '.' :: (symbol.toList ++ (e.suffix ++ pointed rest)) := by
  simp [pointed, entryCharacters]

theorem pointed_eq_joined (h : entries ≠ []) : pointed entries = '.' :: joined entries := by
  induction entries with
  | nil => exact absurd rfl h
  | cons entry rest ih =>
    obtain ⟨symbol, e⟩ := entry
    cases rest with
    | nil => simp [pointed, joined]
    | cons next others =>
      rw [pointed_cons, ih (List.cons_ne_nil _ _)]
      simp [joined, entryCharacters]

theorem head?_pointed (entries : List (String × Exponent)) :
    ∀ c ∈ (pointed entries).head?, c = '.' := by
  intro c hc
  cases entries with
  | nil => cases hc
  | cons entry rest => exact (Option.some.inj hc).symm

/-- An exponent ends at the next point. -/
theorem suffix_append_inj {e f : Exponent}
    (h : e.suffix ++ pointed entries = f.suffix ++ pointed others) :
    e = f ∧ pointed entries = pointed others := by
  have hsuffix (e : Exponent) : ∀ c ∈ e.suffix, (c != '.') = true := fun c hc =>
    bne_iff_ne.2 (Exponent.ne_point_of_mem_suffix hc)
  have hpoint (entries : List (String × Exponent)) :
      ∀ c ∈ (pointed entries).head?, (c != '.') = false := fun c hc =>
    bne_eq_false_iff_eq.2 (head?_pointed entries c hc)
  obtain ⟨hef, hrest⟩ := Lists.append_inj_boundary (hsuffix e) (hsuffix f) (hpoint entries)
    (hpoint others) h
  exact ⟨Exponent.suffix_injective hef, hrest⟩

/-- Where the symbols are known, the text gives the exponents, whatever the symbols are. -/
theorem eq_of_pointed_of_symbols (hs : entries.map Prod.fst = others.map Prod.fst)
    (h : pointed entries = pointed others) : entries = others := by
  induction entries generalizing others with
  | nil => exact (List.map_eq_nil_iff.1 hs.symm).symm
  | cons entry rest ih =>
    cases others with
    | nil => cases hs
    | cons entry' rest' =>
      obtain ⟨symbol, e⟩ := entry
      obtain ⟨symbol', f⟩ := entry'
      obtain ⟨rfl, hsymbols⟩ := List.cons.inj hs
      rw [pointed_cons, pointed_cons] at h
      obtain ⟨rfl, hrest⟩ := suffix_append_inj (List.append_cancel_left (List.cons.inj h).2)
      rw [ih hsymbols hrest]

/-- The symbols are those of the grammar, so that none of them runs into its exponent. -/
def Spellable (u : CompoundUnit) : Prop :=
  ∀ entry ∈ u.entries, IsSymbol entry.1.toList

instance (u : CompoundUnit) : Decidable u.Spellable :=
  inferInstanceAs (Decidable (∀ entry ∈ u.entries, IsSymbol entry.1.toList))

theorem head?_suffix_append (e : Exponent) (rest : List (String × Exponent)) :
    ∀ c ∈ (e.suffix ++ pointed rest).head?, isSymbolCharacter c = false := by
  intro c hc
  cases hs : e.suffix with
  | nil =>
    rw [hs, List.nil_append] at hc
    rw [head?_pointed rest c hc]
    rfl
  | cons first tail =>
    rw [hs] at hc
    obtain rfl : first = c := Option.some.inj hc
    exact Exponent.not_isSymbolCharacter_of_mem_suffix (hs ▸ List.mem_cons_self)

theorem eq_of_pointed (he : ∀ entry ∈ entries, IsSymbol entry.1.toList)
    (ho : ∀ entry ∈ others, IsSymbol entry.1.toList) (h : pointed entries = pointed others) :
    entries = others := by
  induction entries generalizing others with
  | nil =>
    cases others with
    | nil => rfl
    | cons => cases h
  | cons entry rest ih =>
    cases others with
    | nil => cases h
    | cons entry' rest' =>
      obtain ⟨symbol, e⟩ := entry
      obtain ⟨symbol', f⟩ := entry'
      obtain ⟨hsymbol, hsymbols⟩ := List.forall_mem_cons.1 he
      obtain ⟨hsymbol', hsymbols'⟩ := List.forall_mem_cons.1 ho
      rw [pointed_cons, pointed_cons] at h
      obtain ⟨hname, hexponent⟩ := Lists.append_inj_boundary hsymbol.2 hsymbol'.2
        (head?_suffix_append e rest) (head?_suffix_append f rest') (List.cons.inj h).2
      obtain rfl : symbol = symbol' := String.toList_inj.1 hname
      obtain ⟨rfl, hrest⟩ := suffix_append_inj hexponent
      rw [ih hsymbols hsymbols' hrest]

theorem eq_of_entries (h : u.entries = v.entries) : u = v := by
  cases u
  cases v
  exact congrArg mk h

theorem characters_of_text (h : u.text = v.text) : u.characters = v.characters := by
  have hlists := congrArg String.toList h
  rwa [text, text, String.toList_ofList, String.toList_ofList] at hlists

theorem point_characters (h : u.entries ≠ []) : '.' :: u.characters = pointed u.entries := by
  have hdimensionless : u.isDimensionless = false := by
    rw [isDimensionless, List.isEmpty_eq_false_iff]
    exact h
  rw [pointed_eq_joined h, characters, hdimensionless]
  rfl

/-- Of units with the same symbols, whatever these are, only equal ones have the same text. -/
theorem text_eq_iff_of_symbols (hs : u.symbols = v.symbols) : u.text = v.text ↔ u = v := by
  refine ⟨fun h => ?_, congrArg text⟩
  have hentries : u.entries = v.entries := by
    by_cases hu : u.entries = []
    · have hv : v.symbols = [] := by rw [← hs, symbols, hu, List.map_nil]
      rw [hu, List.map_eq_nil_iff.1 hv]
    · have hv : v.entries ≠ [] := by
        intro hv
        have hnil : u.symbols = [] := by rw [hs, symbols, hv, List.map_nil]
        exact hu (List.map_eq_nil_iff.1 hnil)
      apply eq_of_pointed_of_symbols hs
      rw [← point_characters hu, ← point_characters hv, characters_of_text h]
  exact eq_of_entries hentries

theorem Spellable.head?_characters (hu : u.Spellable) (hne : u.entries ≠ []) :
    ∀ c ∈ u.characters.head?, isSymbolCharacter c = true := by
  intro c hc
  obtain ⟨entry, rest, hentries⟩ := List.exists_cons_of_ne_nil hne
  obtain ⟨symbol, e⟩ := entry
  have hsymbol : IsSymbol symbol.toList := hu (symbol, e) (hentries ▸ List.mem_cons_self)
  have hcharacters := point_characters hne
  rw [hentries, pointed_cons] at hcharacters
  obtain ⟨first, tail, hfirst⟩ := List.exists_cons_of_ne_nil hsymbol.1
  rw [(List.cons.inj hcharacters).2, hfirst] at hc
  obtain rfl : first = c := Option.some.inj hc
  exact hsymbol.2 first (hfirst ▸ List.mem_cons_self)

/-- The text of the dimensionless unit does not begin as a symbol does. -/
theorem Spellable.entries_eq_nil_of_text (hu : u.Spellable) (h : u.text = dimensionless.text) :
    u.entries = [] := by
  by_contra hne
  have hhead := hu.head?_characters hne '1' (by rw [characters_of_text h]; rfl)
  exact absurd hhead (by decide)

theorem Spellable.eq_of_text (hu : u.Spellable) (hv : v.Spellable) (h : u.text = v.text) :
    u = v := by
  have hentries : u.entries = v.entries := by
    by_cases hun : u.entries = []
    · obtain rfl : u = dimensionless := congrArg mk hun
      exact (hv.entries_eq_nil_of_text h.symm).symm
    · by_cases hvn : v.entries = []
      · obtain rfl : v = dimensionless := congrArg mk hvn
        exact hu.entries_eq_nil_of_text h
      · apply eq_of_pointed hu hv
        rw [← point_characters hun, ← point_characters hvn, characters_of_text h]
  exact eq_of_entries hentries

/-- Units of proper symbols are told apart by their texts, whatever their exponents are, and so are
the units that a sum, a matrix or an operation on units is refused for by the details of the
refusal. -/
theorem text_distinguishes :
    (∀ u v : CompoundUnit, u.Spellable → v.Spellable → (u.text = v.text ↔ u = v)) ∧
    (∀ u v u' v' : CompoundUnit, u.Spellable → v.Spellable → u'.Spellable → v'.Spellable →
      ((Cause.unlikeUnits u v).details = (Cause.unlikeUnits u' v').details ↔ u = u' ∧ v = v') ∧
      ((Cause.cellUnits u v).details = (Cause.cellUnits u' v').details ↔ u = u' ∧ v = v')) ∧
    ∀ u v : CompoundUnit, u.Spellable → v.Spellable →
      ((Cause.exponentRange u).details = (Cause.exponentRange v).details ↔ u = v) := by
  have htext {u v : CompoundUnit} (hu : u.Spellable) (hv : v.Spellable) :
      u.text = v.text ↔ u = v := ⟨hu.eq_of_text hv, congrArg text⟩
  refine ⟨fun _ _ => htext, ?_, ?_⟩
  · intro u v u' v' hu hv hu' hv'
    simp [Cause.details, htext hu hu', htext hv hv']
  · intro u v hu hv
    simp [Cause.details, htext hu hv]

/-- A fraction and the least exponent of the range are told apart, and so are a fraction and its
sign, a unit and its inverse, and a unit from none. -/
theorem text_distinguishes_sample :
    let u : CompoundUnit := ⟨[("%", ⟨1, 1⟩), ("m", ⟨-1, 2⟩)]⟩
    let v : CompoundUnit := ⟨[("%", ⟨1, 1⟩), ("m", ⟨-9223372036854775808, 1⟩)]⟩
    u.Spellable ∧ v.Spellable ∧ u.text ≠ v.text ∧ v.text ≠ dimensionless.text ∧
      (Cause.unlikeUnits u v).details ≠ (Cause.unlikeUnits v u).details ∧
      (Cause.cellUnits u v).details ≠ (Cause.cellUnits u u).details ∧
      (Cause.exponentRange u).details ≠ (Cause.exponentRange v).details := by
  intro u v
  have hu : u.Spellable := by decide
  have hv : v.Spellable := by decide
  have hd : dimensionless.Spellable := by decide
  have hne : u ≠ v := by decide
  obtain ⟨htext, hpairs, hrange⟩ := text_distinguishes
  refine ⟨hu, hv, mt (htext u v hu hv).1 hne, mt (htext v _ hv hd).1 (by decide), ?_, ?_,
    mt (hrange u v hu hv).1 hne⟩
  · exact fun h => hne ((hpairs u v v u hu hv hv hu).1.1 h).1
  · exact fun h => hne ((hpairs u v u u hu hv hu hu).2.1 h).2.symm

end CompoundUnit

end QuantityCalculus
