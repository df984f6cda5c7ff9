import QuantityCalculus.Value.Text
import QuantityCalculus.Proofs.CompoundUnit.Exactness
import QuantityCalculus.Proofs.CompoundUnit.Reading

/-!
Reading what was written. The text of a unit with integer exponents is in the grammar, and the
powers that it spells have the unit as their product. It is read back unless an exponent is the
least integer of the range: the digits are read as a number of their own, before the sign, and the
opposite of that integer is out of the range.
-/
namespace QuantityCalculus

open CompoundUnit

section Digits

theorem isNumeral_natural (n : Nat) : IsNumeral (Decimal.natural n) :=
  ⟨Nat.toDigits_ne_nil, fun _ hc => Nat.isDigit_of_mem_toDigits (by decide) (by decide) hc⟩

theorem numeral_natural (n : Nat) : numeral (Decimal.natural n) = n :=
  congrArg Nat.cast (Nat.ofDigitChars_toDigits (by decide) (by decide))

theorem spellsExponent_integer (n : Int) : SpellsExponent (Decimal.integer n) n := by
  have hdigits := isNumeral_natural n.natAbs
  unfold Decimal.integer
  split
  · rename_i hneg
    have hwritten := SpellsExponent.written .minus hdigits
    rw [numeral_natural, if_pos rfl, Int.ofNat_natAbs_of_nonpos (Int.le_of_lt hneg),
      Int.neg_neg] at hwritten
    exact hwritten
  · rename_i hnonneg
    have hwritten := SpellsExponent.written .omitted hdigits
    rw [numeral_natural, Int.natAbs_of_nonneg (Int.not_lt.1 hnonneg)] at hwritten
    exact hwritten

theorem Exponent.spells_suffix {e : Exponent} (he : e.denominator = 1) :
    SpellsExponent e.suffix e.numerator := by
  have hinteger : e.isInteger = true := decide_eq_true he
  rw [suffix, if_pos hinteger]
  split
  · rename_i hone
    have hnumerator : e.numerator = e.denominator := of_decide_eq_true hone
    rw [hnumerator, he]
    exact .omitted
  · exact spellsExponent_integer e.numerator

end Digits

namespace CompoundUnit

variable {u : CompoundUnit} {entries : List (String × Exponent)} {symbol : String}
variable {text : List Char} {powers : List (String × Int)}

/-- The least exponent of the range. -/
def leastExponent : Int :=
  -9223372036854775808

/-- A unit of proper symbols whose exponents are integers of the range. -/
structure Integral (u : CompoundUnit) : Prop where
  ordered : u.Ordered
  symbols : ∀ entry ∈ u.entries, IsSymbol entry.1.toList
  integers : ∀ entry ∈ u.entries, entry.2.denominator = 1
  nonzero : ∀ entry ∈ u.entries, entry.2.numerator ≠ 0
  words : ∀ entry ∈ u.entries, InWord entry.2.numerator

instance (u : CompoundUnit) : Decidable u.Integral :=
  decidable_of_iff
    (u.Ordered ∧ ∀ entry ∈ u.entries, IsSymbol entry.1.toList ∧ entry.2.denominator = 1 ∧
      entry.2.numerator ≠ 0 ∧ InWord entry.2.numerator)
    ⟨fun h => ⟨h.1, fun entry hm => (h.2 entry hm).1, fun entry hm => (h.2 entry hm).2.1,
      fun entry hm => (h.2 entry hm).2.2.1, fun entry hm => (h.2 entry hm).2.2.2⟩,
      fun h => ⟨h.ordered, fun entry hm => ⟨h.symbols entry hm, h.integers entry hm,
        h.nonzero entry hm, h.words entry hm⟩⟩⟩

theorem integral_dimensionless : dimensionless.Integral := by
  decide

/-- The powers that the text of such a unit spells. -/
def powersOf (entries : List (String × Exponent)) : List (String × Int) :=
  entries.map fun entry => (entry.1, entry.2.numerator)

section Writing

theorem spells_entry {entry : String × Exponent} (hs : IsSymbol entry.1.toList)
    (he : entry.2.denominator = 1) :
    SpellsTerm (entryCharacters entry) (entry.1, entry.2.numerator) := by
  have hterm := SpellsTerm.power hs (Exponent.spells_suffix he)
  rw [String.ofList_toList] at hterm
  exact hterm

/-- The text is written from its first entry on, and the grammar goes on from a text at its end. -/
theorem Spells.joined (h : Spells text powers) (hne : entries ≠ [])
    (hs : ∀ entry ∈ entries, IsSymbol entry.1.toList)
    (hi : ∀ entry ∈ entries, entry.2.denominator = 1) :
    Spells (text ++ '.' :: joined entries) (powers ++ powersOf entries) := by
  induction entries generalizing text powers with
  | nil => exact absurd rfl hne
  | cons entry rest ih =>
    obtain ⟨hsymbol, hsymbols⟩ := List.forall_mem_cons.1 hs
    obtain ⟨hinteger, hintegers⟩ := List.forall_mem_cons.1 hi
    have hentry := h.factor (.inl rfl) (spells_entry hsymbol hinteger)
    cases rest with
    | nil => exact hentry
    | cons next others =>
      have hrest := ih hentry (List.cons_ne_nil _ _) hsymbols hintegers
      rw [List.append_assoc, List.append_assoc] at hrest
      exact hrest

theorem spells_joined (hne : entries ≠ []) (hs : ∀ entry ∈ entries, IsSymbol entry.1.toList)
    (hi : ∀ entry ∈ entries, entry.2.denominator = 1) :
    Spells (joined entries) (powersOf entries) := by
  cases entries with
  | nil => exact absurd rfl hne
  | cons entry rest =>
    obtain ⟨hsymbol, hsymbols⟩ := List.forall_mem_cons.1 hs
    obtain ⟨hinteger, hintegers⟩ := List.forall_mem_cons.1 hi
    have hentry := Spells.term (spells_entry hsymbol hinteger)
    cases rest with
    | nil => exact hentry
    | cons next others => exact hentry.joined (List.cons_ne_nil _ _) hsymbols hintegers

end Writing

section Totals

theorem total_eq_zero (h : ∀ power ∈ powers, power.1 ≠ symbol) : total symbol powers = 0 := by
  rw [total, List.filter_eq_nil_iff.2 fun power hm => by simpa using h power hm]
  rfl

/-- As every symbol stands once, its sum is the one exponent that it has. -/
theorem total_powersOf (h : entries.Pairwise fun p q => p.1 < q.1) (symbol : String) :
    total symbol (powersOf entries) = (exponent ⟨entries⟩ symbol).numerator := by
  induction entries with
  | nil => rfl
  | cons entry rest ih =>
    obtain ⟨s, e⟩ := entry
    obtain ⟨hfirst, hrest⟩ := List.pairwise_cons.1 h
    have hexponent : (exponent ⟨(s, e) :: rest⟩ symbol) =
        if symbol = s then e else exponent ⟨rest⟩ symbol := by
      rw [exponent, lookup_entry_cons]
      split <;> rfl
    change total symbol ((s, e.numerator) :: powersOf rest) = _
    rw [total_cons, hexponent]
    by_cases hs : s = symbol
    · subst hs
      have hzero : total s (powersOf rest) = 0 := by
        apply total_eq_zero
        intro power hm
        obtain ⟨entry, hentry, rfl⟩ := List.mem_map.1 hm
        exact fun heq => String.lt_irrefl s (heq ▸ hfirst entry hentry)
      rw [if_pos rfl, if_pos rfl, hzero, add_zero]
    · rw [if_neg hs, if_neg (Ne.symm hs), zero_add, ih hrest]

theorem exponent_cases (entries : List (String × Exponent)) (symbol : String) :
    exponent ⟨entries⟩ symbol = .zero ∨ (symbol, exponent ⟨entries⟩ symbol) ∈ entries := by
  rw [exponent]
  cases hl : entries.lookup symbol with
  | none => exact .inl rfl
  | some e => exact .inr (mem_of_lookup hl)

end Totals

section Integral

theorem Integral.canonical (h : u.Integral) : u.Canonical := by
  refine ⟨h.ordered, ?_, ?_⟩
  · intro entry hm
    exact decide_eq_false (h.nonzero entry hm)
  · intro entry hm
    rw [Exponent.Reduced, h.integers entry hm]
    exact ⟨Int.zero_lt_one, Int.gcd_one⟩

/-- A unit with integer exponents is the product of its own powers. -/
theorem isProduct_powersOf (hu : u.Canonical) (hi : u.IntegerPowers) :
    u.IsProduct (powersOf u.entries) := by
  refine ⟨hu, ?_⟩
  intro symbol
  obtain ⟨n, -, hn⟩ := hi.exponent symbol
  rw [total_powersOf hu.ordered]
  change u.exponent symbol = .ofInt (u.exponent symbol).numerator
  rw [hn]
  rfl

theorem Integral.isProduct (h : u.Integral) : u.IsProduct (powersOf u.entries) :=
  isProduct_powersOf h.canonical fun entry hm =>
    ⟨decide_eq_true (h.integers entry hm), h.words entry hm⟩

theorem Integral.summable (h : u.Integral) : Summable (powersOf u.entries) := by
  intro first hfirst symbol
  have htake : first = powersOf (u.entries.take first.length) := by
    rw [powersOf, List.map_take]
    exact List.prefix_iff_eq_take.1 hfirst
  have hordered := h.ordered.sublist (List.take_sublist first.length u.entries)
  rw [htake, total_powersOf hordered]
  rcases exponent_cases (u.entries.take first.length) symbol with hzero | hm
  · rw [hzero]
    decide
  · exact h.words _ (List.mem_of_mem_take hm)

theorem natAbs_inWord_iff {n : Int} (h : InWord n) : InWord n.natAbs ↔ n ≠ leastExponent := by
  unfold InWord leastExponent at *
  omega

theorem Integral.readable_iff (h : u.Integral) :
    Readable (powersOf u.entries) ↔ ∀ entry ∈ u.entries, entry.2.numerator ≠ leastExponent := by
  constructor
  · intro hreadable entry hm
    exact (natAbs_inWord_iff (h.words entry hm)).1
      (hreadable.exponents _ (List.mem_map_of_mem hm))
  · intro hleast
    refine ⟨?_, h.summable⟩
    intro power hm
    obtain ⟨entry, hentry, rfl⟩ := List.mem_map.1 hm
    exact (natAbs_inWord_iff (h.words entry hentry)).2 (hleast entry hentry)

theorem Integral.answers (h : u.Integral) (hne : u.entries ≠ []) :
    Answers (read u.text) (powersOf u.entries) := by
  have hdimensionless : u.isDimensionless = false := by
    rw [isDimensionless, List.isEmpty_eq_false_iff]
    exact hne
  have hspells := spells_joined hne h.symbols h.integers
  have htext : u.text.toList = joined u.entries := by
    rw [text, String.toList_ofList, characters, hdimensionless]
    rfl
  rw [read_of_plain (htext ▸ hspells.isPlain), htext]
  exact hspells.answers

theorem SpellsTerm.isSymbol {term : List Char} {name : String} {n : Int}
    (h : SpellsTerm term (name, n)) : IsSymbol name.toList := by
  cases h with
  | power hs => exact String.toList_ofList.symm ▸ hs

theorem Spells.isSymbol (h : Spells text powers) : ∀ power ∈ powers, IsSymbol power.1.toList := by
  induction h with
  | @term term power ht => exact List.forall_mem_singleton.2 ht.isSymbol
  | reciprocal ht => exact List.forall_mem_singleton.2 ht.isSymbol
  | factor _ _ ht ih => exact List.forall_mem_append.2 ⟨ih, List.forall_mem_singleton.2 ht.isSymbol⟩

/-- What can be read at all is of this kind. -/
theorem integral_of_isProduct (hspells : Spells text powers) (hreadable : Readable powers)
    (h : u.IsProduct powers) : u.Integral := by
  have hentries : ∀ entry ∈ u.entries, entry.2 = .ofInt (total entry.1 powers) := by
    intro entry hm
    rw [← h.canonical.ordered.exponent_eq hm, h.exponent_eq]
  have hnonzero : ∀ entry ∈ u.entries, entry.2.numerator ≠ 0 := by
    intro entry hm
    exact of_decide_eq_false (h.canonical.zeroFree entry hm)
  refine ⟨h.canonical.ordered, ?_, ?_, hnonzero, ?_⟩
  · intro entry hm
    by_contra hsymbol
    apply hnonzero entry hm
    rw [hentries entry hm]
    apply total_eq_zero
    intro power hpower heq
    exact hsymbol (heq ▸ hspells.isSymbol power hpower)
  · intro entry hm
    rw [hentries entry hm]
    rfl
  · intro entry hm
    rw [hentries entry hm]
    exact hreadable.sums.total entry.1

theorem integral_of_read {text : String} (h : read text = .ok u) : u.Integral := by
  rcases exists_spells_of_readCharacters (readCharacters_of_read h) with ⟨-, rfl⟩ | hspells
  · exact integral_dimensionless
  · obtain ⟨powers, hspells, hreadable, hproduct⟩ := hspells
    exact integral_of_isProduct hspells hreadable hproduct

/-- The text of a unit with proper symbols and integer exponents, and so of every unit that was
read, is read back as the unit exactly if no exponent is the least integer of the range. Otherwise
it is refused as out of the range. -/
theorem text_read_back (u : CompoundUnit) (hu : u.Integral ∨ ∃ text, read text = .ok u) :
    (read u.text = .ok u ↔ ∀ entry ∈ u.entries, entry.2.numerator ≠ leastExponent) ∧
      (read u.text ≠ .ok u → ∃ position, read u.text = .error (.exponentRange position)) := by
  have hintegral : u.Integral := hu.elim id fun ⟨_, h⟩ => integral_of_read h
  by_cases hne : u.entries = []
  · obtain rfl : u = dimensionless := congrArg CompoundUnit.mk hne
    have hunity : read dimensionless.text = .ok dimensionless := by decide
    exact ⟨iff_of_true hunity (by decide), fun h => absurd hunity h⟩
  · have hanswers := hintegral.answers hne
    rw [← hintegral.readable_iff]
    by_cases hreadable : Readable (powersOf u.entries)
    · obtain ⟨v, hv, hproduct⟩ := hanswers.value hreadable
      obtain rfl : v = u := hproduct.eq hintegral.isProduct
      exact ⟨iff_of_true hv hreadable, fun h => absurd hv h⟩
    · obtain ⟨position, hfault⟩ := hanswers.fault hreadable
      have hrefused : read u.text ≠ .ok u := hfault ▸ nofun
      exact ⟨iff_of_false hrefused hreadable, fun _ => ⟨position, hfault⟩⟩

/-- The greatest exponent and its opposite come back, and so does a quotient that was read; the
least exponent does not. -/
theorem text_read_back_sample :
    (∃ u : CompoundUnit, u.Integral ∧ u.text = "kg.m9223372036854775807.s-9223372036854775807" ∧
      read u.text = .ok u) ∧
    (∃ u : CompoundUnit, read "1/%2.m" = .ok u ∧ read u.text = .ok u) ∧
    ∃ u : CompoundUnit, u.Integral ∧ read u.text ≠ .ok u ∧
      ∃ position, read u.text = .error (.exponentRange position) := by
  have hlong : Integral ⟨[("kg", ⟨1, 1⟩), ("m", ⟨9223372036854775807, 1⟩),
    ("s", ⟨-9223372036854775807, 1⟩)]⟩ := by decide
  have hquotient : read "1/%2.m" = .ok ⟨[("%", ⟨-2, 1⟩), ("m", ⟨1, 1⟩)]⟩ := by decide
  have hleast : Integral ⟨[("m", ⟨-9223372036854775808, 1⟩)]⟩ := by decide
  obtain ⟨hiff, hrefused⟩ := text_read_back _ (.inl hleast)
  have hother := mt hiff.1 (by decide)
  exact ⟨⟨_, hlong, by decide, (text_read_back _ (.inl hlong)).1.2 (by decide)⟩,
    ⟨_, hquotient, (text_read_back _ (.inr ⟨_, hquotient⟩)).1.2 (by decide)⟩,
    ⟨_, hleast, hother, hrefused hother⟩⟩

/-- A quotient that reaches the least exponent is read, but its own text is not. -/
theorem least_exponent_refused : ∃ u : CompoundUnit, read "m-9223372036854775807/m" = .ok u ∧
    u.Integral ∧ u.text = "m-9223372036854775808" ∧ read u.text = .error (.exponentRange 2) := by
  refine ⟨⟨[("m", ⟨-9223372036854775808, 1⟩)]⟩, ?_, ?_, ?_, ?_⟩ <;> decide

end Integral

end CompoundUnit

end QuantityCalculus
