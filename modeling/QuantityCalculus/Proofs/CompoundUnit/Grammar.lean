import QuantityCalculus.CompoundUnit.Reader
import QuantityCalculus.Proofs.CompoundUnit.Powers

/-!
The grammar of compound units, stated apart from the reader. A text spells a list of powers, one
for each of its terms; a term after `/` counts with the opposite exponent.
-/
namespace QuantityCalculus.CompoundUnit

variable {text term exponent : List Char} {powers : List (String × Int)}
variable {power : String × Int} {name : String} {n : Int} {c : Char}

/-- One or more characters of a unit symbol. -/
def IsSymbol (characters : List Char) : Prop :=
  characters ≠ [] ∧ ∀ c ∈ characters, isSymbolCharacter c = true

/-- One or more decimal digits. -/
def IsNumeral (characters : List Char) : Prop :=
  characters ≠ [] ∧ ∀ c ∈ characters, c.isDigit = true

instance (characters : List Char) : Decidable (IsSymbol characters) :=
  decidable_of_iff (characters ≠ [] ∧ characters.all isSymbolCharacter = true)
    (and_congr_right' List.all_eq_true)

instance (characters : List Char) : Decidable (IsNumeral characters) :=
  decidable_of_iff (characters ≠ [] ∧ characters.all Char.isDigit = true)
    (and_congr_right' List.all_eq_true)

/-- The number that decimal digits denote. -/
def numeral (digits : List Char) : Int :=
  (Nat.ofDigitChars 10 digits 0 : Nat)

/-- A sign, which may be left out; the flag tells a minus. -/
inductive SpellsSign : List Char → Bool → Prop where
  | omitted : SpellsSign [] false
  | plus : SpellsSign ['+'] false
  | minus : SpellsSign ['-'] true

/-- An exponent, which may be left out where it is one. -/
inductive SpellsExponent : List Char → Int → Prop where
  | omitted : SpellsExponent [] 1
  | written {sign digits : List Char} {negative : Bool} (hs : SpellsSign sign negative)
      (hd : IsNumeral digits) :
      SpellsExponent (sign ++ digits) (if negative then -numeral digits else numeral digits)

inductive SpellsTerm : List Char → String × Int → Prop where
  | power {symbol exponent : List Char} {n : Int} (hs : IsSymbol symbol)
      (he : SpellsExponent exponent n) : SpellsTerm (symbol ++ exponent) (String.ofList symbol, n)

def IsSeparator (c : Char) : Prop :=
  c = '.' ∨ c = '/'

/-- Terms with separators between them, read from left to right; a quotient may begin with `1`. -/
inductive Spells : List Char → List (String × Int) → Prop where
  | term {term : List Char} {power : String × Int} (ht : SpellsTerm term power) :
      Spells term [power]
  | reciprocal {term : List Char} {name : String} {n : Int} (ht : SpellsTerm term (name, n)) :
      Spells ('1' :: '/' :: term) [(name, -n)]
  | factor {text term : List Char} {powers : List (String × Int)} {c : Char} {name : String}
      {n : Int} (h : Spells text powers) (hc : IsSeparator c) (ht : SpellsTerm term (name, n)) :
      Spells (text ++ c :: term) (powers ++ [(name, if c = '/' then -n else n)])

/-- Every exponent is written with digits of a number in the range, and no running sum of the
exponents of one symbol leaves it. -/
structure Readable (powers : List (String × Int)) : Prop where
  exponents : ∀ power ∈ powers, InWord power.2.natAbs
  sums : Summable powers

theorem readable_nil : Readable [] :=
  ⟨fun _ h => absurd h List.not_mem_nil, summable_nil⟩

theorem readable_concat :
    Readable (powers ++ [(name, n)]) ↔
      Readable powers ∧ InWord n.natAbs ∧ InWord (total name powers + n) := by
  constructor
  · rintro ⟨hexponents, hsums⟩
    obtain ⟨hsums, hlast⟩ := summable_concat.1 hsums
    refine ⟨⟨fun power hm => hexponents power (List.mem_append_left _ hm), hsums⟩, ?_, hlast⟩
    exact hexponents (name, n) (List.mem_append_right _ List.mem_cons_self)
  · rintro ⟨⟨hexponents, hsums⟩, hn, hlast⟩
    refine ⟨?_, summable_concat.2 ⟨hsums, hlast⟩⟩
    intro power hm
    rcases List.mem_append.1 hm with hm | hm
    · exact hexponents power hm
    · exact List.mem_singleton.1 hm ▸ hn

section Characters

/-- The characters that the reader takes at all. -/
def IsPlain (c : Char) : Prop :=
  c.toNat < 128 ∧ isBlank c = false

instance (c : Char) : Decidable (IsPlain c) :=
  inferInstanceAs (Decidable (_ ∧ _))

theorem isAlpha_iff :
    c.isAlpha = true ↔ 65 ≤ c.toNat ∧ c.toNat ≤ 90 ∨ 97 ≤ c.toNat ∧ c.toNat ≤ 122 := by
  show (decide ('A'.val ≤ c.val ∧ c.val ≤ 'Z'.val) ||
    (decide ('a'.val ≤ c.val) && decide (c.val ≤ 'z'.val))) = true ↔ _
  simp only [Bool.or_eq_true, Bool.and_eq_true, decide_eq_true_eq, UInt32.le_iff_toNat_le]
  exact Iff.rfl

theorem isDigit_iff : c.isDigit = true ↔ 48 ≤ c.toNat ∧ c.toNat ≤ 57 :=
  Char.isDigit_iff_toNat

theorem isPlain_of_isAlphanum (h : c.isAlphanum = true) : IsPlain c := by
  constructor
  · have h : c.isAlpha = true ∨ c.isDigit = true := Bool.or_eq_true_iff.1 h
    rw [isAlpha_iff, isDigit_iff] at h
    omega
  · by_contra hblank
    simp only [isBlank, Bool.not_eq_false, Bool.or_eq_true, decide_eq_true_eq] at hblank
    rcases hblank with (((rfl | rfl) | rfl) | rfl) | rfl <;> exact absurd h (by decide)

theorem isPlain_of_isSymbolCharacter (h : isSymbolCharacter c = true) : IsPlain c := by
  simp only [isSymbolCharacter, Bool.or_eq_true, decide_eq_true_eq] at h
  rcases h with ((((h | rfl) | rfl) | rfl) | rfl) | rfl
  · exact isPlain_of_isAlphanum (Bool.or_eq_true_iff.2 (.inl h))
  all_goals decide

theorem isPlain_of_isDigit (h : c.isDigit = true) : IsPlain c :=
  isPlain_of_isAlphanum (Bool.or_eq_true_iff.2 (.inr h))

theorem SpellsExponent.isPlain (h : SpellsExponent exponent n) : ∀ c ∈ exponent, IsPlain c := by
  intro c hm
  cases h with
  | omitted => cases hm
  | written hs hd =>
    rcases List.mem_append.1 hm with hm | hm
    · cases hs with
      | omitted => cases hm
      | plus => exact List.mem_singleton.1 hm ▸ by decide
      | minus => exact List.mem_singleton.1 hm ▸ by decide
    · exact isPlain_of_isDigit (hd.2 c hm)

theorem SpellsTerm.isPlain (h : SpellsTerm term power) : ∀ c ∈ term, IsPlain c := by
  intro c hm
  cases h with
  | power hs he =>
    rcases List.mem_append.1 hm with hm | hm
    · exact isPlain_of_isSymbolCharacter (hs.2 c hm)
    · exact he.isPlain c hm

theorem Spells.isPlain (h : Spells text powers) : ∀ c ∈ text, IsPlain c := by
  induction h with
  | term ht => exact ht.isPlain
  | reciprocal ht =>
    intro c hm
    rcases List.mem_cons.1 hm with rfl | hm
    · decide
    · rcases List.mem_cons.1 hm with rfl | hm
      · decide
      · exact ht.isPlain c hm
  | factor _ hc ht ih =>
    intro c hm
    rcases List.mem_append.1 hm with hm | hm
    · exact ih c hm
    · rcases List.mem_cons.1 hm with rfl | hm
      · rcases hc with rfl | rfl <;> decide
      · exact ht.isPlain c hm

theorem SpellsTerm.exists_cons (h : SpellsTerm term power) :
    ∃ c rest, term = c :: rest ∧ isSymbolCharacter c = true := by
  cases h with
  | @power symbol exponent _ hs _ =>
    obtain ⟨c, rest, rfl⟩ := List.exists_cons_of_ne_nil hs.1
    exact ⟨c, rest ++ exponent, rfl, hs.2 c List.mem_cons_self⟩

end Characters

end QuantityCalculus.CompoundUnit
