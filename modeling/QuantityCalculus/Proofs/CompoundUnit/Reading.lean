import QuantityCalculus.Proofs.CompoundUnit.Reader

/-!
Reading compound units. The reader comes through every text of the grammar, term by term, and stops
within one only where an exponent leaves the range. So it accepts the texts of the grammar whose
powers are readable, and no others, and its unit is their product.
-/
namespace QuantityCalculus.CompoundUnit

namespace Reader

variable {r : Reader} {head : TermHead} {negative : Bool} {first : Nat} {name : String} {n : Int}
variable {symbol exponent digits term rest : List Char} {powers : List (String × Int)} {c : Char}

/-- The reader after some more characters. -/
def after (r : Reader) (characters : List Char) : Except UnitTextFault Reader :=
  characters.foldlM step r

theorem after_cons : r.after (c :: rest) = r.step c >>= fun next => next.after rest :=
  List.foldlM_cons ..

theorem after_append (characters : List Char) :
    r.after (characters ++ rest) = r.after characters >>= fun next => next.after rest :=
  List.foldlM_append ..

theorem run_append (characters rest : List Char) :
    r.run (characters ++ rest) = r.after characters >>= fun next => next.run rest := by
  induction characters generalizing r with
  | nil => rfl
  | cons c tail ih =>
    rw [List.cons_append, run, after_cons]
    cases r.step c with
    | error fault => rfl
    | ok next => exact ih

theorem run_eq (characters : List Char) : r.run characters = r.after characters >>= finish := by
  have h := run_append (r := r) characters []
  rwa [List.append_nil] at h

section Digits

theorem le_ofDigitChars (digits : List Char) (value : Nat) :
    value ≤ Nat.ofDigitChars 10 digits value := by
  induction digits generalizing value with
  | nil => exact le_rfl
  | cons c tail ih =>
    rw [Nat.ofDigitChars_cons]
    exact le_trans (by omega) (ih _)

/-- The number only grows from digit to digit, so that it stays in the range to its last digit or
leaves it once and for all. -/
theorem after_digits {value : Nat} (hd : ∀ c ∈ digits, c.isDigit = true)
    (hr : r.phase = .inDigits head negative first value) :
    (InWord (Nat.ofDigitChars 10 digits value) →
      r.after digits = .ok ⟨r.position + digits.length, r.units, r.divides,
        .inDigits head negative first (Nat.ofDigitChars 10 digits value)⟩) ∧
      (¬ InWord (Nat.ofDigitChars 10 digits value) → InWord value →
        r.after digits = .error (.exponentRange first)) := by
  induction digits generalizing r value with
  | nil =>
    obtain ⟨position, units, divides, phase⟩ := r
    subst hr
    exact ⟨fun _ => rfl, fun hn hv => absurd hv hn⟩
  | cons c tail ih =>
    obtain ⟨hc, htail⟩ := List.forall_mem_cons.1 hd
    have hnext : (value : Int) * 10 + digitOf c = (10 * value + (c.toNat - '0'.toNat) : Nat) := by
      rw [digitOf_eq hc]
      omega
    have hstep : r.step c = r.digit head negative first value c := by
      simp only [step, hr, hc, if_true]
    rw [after_cons, hstep, digit_eq, hnext, Nat.ofDigitChars_cons, List.length_cons,
      Nat.add_comm tail.length, ← Nat.add_assoc]
    by_cases hword : InWord (10 * value + (c.toNat - '0'.toNat) : Nat)
    · rw [if_pos hword]
      obtain ⟨hfits, hleaves⟩ := ih (r := ⟨r.position + 1, r.units, r.divides, _⟩) htail rfl
      exact ⟨hfits, fun hn _ => hleaves hn hword⟩
    · rw [if_neg hword]
      refine ⟨fun h => absurd (h.of_le (Int.natCast_nonneg _) ?_) hword, fun _ _ => rfl⟩
      exact Int.ofNat_le.2 (le_ofDigitChars tail _)

end Digits

section Terms

/-- The reader comes to the end of a term, or finds the digits of its exponent out of the range. -/
structure EndsTerm (r : Reader) (characters : List Char) (head : TermHead) (n : Int) : Prop where
  ends : InWord n.natAbs → ∃ phase : Phase,
    r.after characters = .ok ⟨r.position + characters.length, r.units, r.divides, phase⟩ ∧
      phase.term? = some (head, n)
  fault : ¬ InWord n.natAbs → ∃ first, r.after characters = .error (.exponentRange first)

theorem EndsTerm.prepend {next : Reader} {characters : List Char} (h : next.EndsTerm rest head n)
    (hafter : r.after characters = .ok next)
    (hposition : next.position = r.position + characters.length) (hunits : next.units = r.units)
    (hdivides : next.divides = r.divides) : r.EndsTerm (characters ++ rest) head n := by
  constructor
  · intro hn
    obtain ⟨phase, hnext, hterm⟩ := h.ends hn
    refine ⟨phase, ?_, hterm⟩
    rw [after_append, hafter]
    refine hnext.trans ?_
    rw [hposition, hunits, hdivides, List.length_append, Nat.add_assoc]
  · intro hn
    obtain ⟨first, hnext⟩ := h.fault hn
    exact ⟨first, by rw [after_append, hafter]; exact hnext⟩

theorem endsTerm_digits (hd : IsNumeral digits) (hr : r.phase = .inDigits head negative first 0) :
    r.EndsTerm digits head (signed negative (numeral digits)) := by
  have hword : InWord (signed negative (numeral digits)).natAbs ↔
      InWord (Nat.ofDigitChars 10 digits 0) := by
    rw [natAbs_signed]
    rfl
  obtain ⟨hfits, hleaves⟩ := after_digits hd.2 hr
  exact ⟨fun hn => ⟨_, hfits (hword.1 hn), rfl⟩,
    fun hn => ⟨first, hleaves (mt hword.2 hn) (by decide)⟩⟩

theorem isSymbolCharacter_of_isDigit (hc : c.isDigit = true) : isSymbolCharacter c = false := by
  by_contra hsymbol
  simp only [isSymbolCharacter, Bool.not_eq_false, Bool.or_eq_true, decide_eq_true_eq] at hsymbol
  rcases hsymbol with ((((h | rfl) | rfl) | rfl) | rfl) | rfl
  · rw [isAlpha_iff] at h
    rw [isDigit_iff] at hc
    omega
  all_goals exact absurd hc (by decide)

/-- At the first digit it makes no difference whether the number had begun. -/
theorem after_first_digit (hd : IsNumeral digits)
    (hr : r.phase = .inSymbol head ∧ negative = false ∨ r.phase = .afterSign head negative) :
    r.after digits =
      after ⟨r.position, r.units, r.divides, .inDigits head negative r.position 0⟩ digits := by
  obtain ⟨c, tail, rfl⟩ := List.exists_cons_of_ne_nil hd.1
  have hc : c.isDigit = true := hd.2 c List.mem_cons_self
  have hsign : ¬ (c = '-' ∨ c = '+') := by
    rintro (rfl | rfl) <;> exact absurd hc (by decide)
  rw [after_cons, after_cons]
  rcases hr with ⟨hr, rfl⟩ | hr
  · simp only [step, hr, isSymbolCharacter_of_isDigit hc, Bool.false_eq_true, hsign, hc, if_false,
      if_true, digit]
  · simp only [step, hr, hc, if_true, digit]

theorem endsTerm_numeral (hd : IsNumeral digits)
    (hr : r.phase = .inSymbol head ∧ negative = false ∨ r.phase = .afterSign head negative) :
    r.EndsTerm digits head (signed negative (numeral digits)) := by
  have hends : EndsTerm ⟨r.position, r.units, r.divides, .inDigits head negative r.position 0⟩
      digits head (signed negative (numeral digits)) := endsTerm_digits hd rfl
  have hafter := after_first_digit hd hr
  exact ⟨hafter ▸ hends.ends, hafter ▸ hends.fault⟩

theorem endsTerm_exponent (he : SpellsExponent exponent n) (hr : r.phase = .inSymbol head) :
    r.EndsTerm exponent head n := by
  obtain ⟨position, units, divides, phase⟩ := r
  subst hr
  cases he with
  | omitted => exact ⟨fun _ => ⟨_, rfl, rfl⟩, fun hn => absurd (by decide) hn⟩
  | written hs hd =>
    cases hs with
    | omitted => exact endsTerm_numeral hd (.inl ⟨rfl, rfl⟩)
    | plus =>
      have hnext : EndsTerm ⟨position + 1, units, divides, .afterSign head false⟩ _ head _ :=
        endsTerm_numeral hd (.inr rfl)
      exact hnext.prepend rfl rfl rfl rfl
    | minus =>
      have hnext : EndsTerm ⟨position + 1, units, divides, .afterSign head true⟩ _ head _ :=
        endsTerm_numeral hd (.inr rfl)
      exact hnext.prepend rfl rfl rfl rfl

theorem after_symbol (hs : ∀ c ∈ symbol, isSymbolCharacter c = true)
    (hr : r.phase = .inSymbol head) :
    r.after symbol = .ok ⟨r.position + symbol.length, r.units, r.divides,
      .inSymbol ⟨head.start, head.symbol ++ symbol⟩⟩ := by
  induction symbol generalizing r head with
  | nil =>
    obtain ⟨position, units, divides, phase⟩ := r
    subst hr
    rw [List.append_nil]
    rfl
  | cons c tail ih =>
    obtain ⟨hc, htail⟩ := List.forall_mem_cons.1 hs
    rw [after_cons]
    simp only [step, hr, hc, if_true]
    refine (ih htail rfl).trans ?_
    rw [List.append_assoc, List.length_cons, Nat.add_assoc, Nat.add_comm 1]
    rfl

theorem endsTerm_term (ht : SpellsTerm term (name, n)) (hr : r.phase = .beforeSymbol) :
    r.EndsTerm term ⟨r.position, name.toList⟩ n := by
  cases ht with
  | @power symbol exponent _ hs he =>
    obtain ⟨c, tail, rfl⟩ := List.exists_cons_of_ne_nil hs.1
    obtain ⟨hc, htail⟩ := List.forall_mem_cons.1 hs.2
    have hafter : r.after (c :: tail) = .ok ⟨r.position + (c :: tail).length, r.units, r.divides,
        .inSymbol ⟨r.position, c :: tail⟩⟩ := by
      rw [after_cons]
      simp only [step, hr, hc, if_true]
      refine (after_symbol htail rfl).trans ?_
      rw [List.length_cons, Nat.add_assoc, Nat.add_comm 1]
      rfl
    rw [String.toList_ofList]
    exact (endsTerm_exponent he rfl).prepend hafter rfl rfl rfl

theorem step_of_term? (h : r.phase.term? = some (head, n)) (hc : IsSeparator c) :
    r.step c = r.close head n >>= fun units =>
      .ok (afterSeparator c (r.position + 1) units) := by
  obtain ⟨position, units, divides, phase⟩ := r
  cases phase with
  | beforeSymbol | afterSign => cases h
  | inSymbol | inDigits =>
    cases h
    rcases hc with rfl | rfl <;> rfl

/-- After a separator the reader goes on with the unit that it would have ended with. -/
theorem run_term_separator (ht : SpellsTerm term (name, n)) (hr : r.phase = .beforeSymbol)
    (hc : IsSeparator c) :
    r.run (term ++ c :: rest) = r.run term >>= fun units =>
      (afterSeparator c (r.position + term.length + 1) units).run rest := by
  have hends := endsTerm_term ht hr
  rw [run_append, run_eq]
  by_cases hn : InWord n.natAbs
  · obtain ⟨phase, hafter, hterm⟩ := hends.ends hn
    rw [hafter]
    change run _ (c :: rest) = finish _ >>= _
    rw [run, step_of_term? hterm hc, finish_of_term? hterm]
    cases close _ _ _ <;> rfl
  · obtain ⟨first, hafter⟩ := hends.fault hn
    rw [hafter]
    rfl

/-- A whole term at the end of a text is multiplied or divided in. -/
theorem EndsTerm.run_answers {characters : List Char} (h : r.EndsTerm characters head n)
    (hunits : r.units.IsProduct powers) (hp : Readable powers) :
    Answers (r.run characters)
      (powers ++ [(String.ofList head.symbol, signed r.divides n)]) := by
  rw [run_eq]
  by_cases hn : InWord n.natAbs
  · obtain ⟨phase, hafter, hterm⟩ := h.ends hn
    have hclose : Answers (close ⟨r.position + characters.length, r.units, r.divides, phase⟩
        head n) _ := close_answers hunits hp hn
    rw [hafter]
    change Answers (finish _) _
    rw [finish_of_term? hterm]
    exact hclose
  · obtain ⟨first, hafter⟩ := h.fault hn
    rw [hafter]
    constructor
    · intro hreadable
      have hsigned := (readable_concat.1 hreadable).2.1
      rw [natAbs_signed] at hsigned
      exact absurd hsigned hn
    · intro _
      exact ⟨first, rfl⟩

theorem run_term_answers (ht : SpellsTerm term (name, n)) (hr : r.phase = .beforeSymbol)
    (hunits : r.units.IsProduct powers) (hp : Readable powers) :
    Answers (r.run term) (powers ++ [(name, signed r.divides n)]) := by
  have hanswers := (endsTerm_term ht hr).run_answers hunits hp
  rwa [String.ofList_toList] at hanswers

end Terms

end Reader

variable {text term rest : List Char} {powers : List (String × Int)} {power : String × Int}
variable {c : Char} {u : CompoundUnit}

theorem readCharacters_cons (hc : c ≠ '1') (rest : List Char) :
    readCharacters (c :: rest) = Reader.start.run (c :: rest) := by
  unfold readCharacters
  split
  · rename_i heq
    cases heq
  · rename_i heq
    exact absurd (List.cons.inj heq).1 hc
  · rename_i heq
    exact absurd (List.cons.inj heq).1 hc
  · rfl

/-- A text that begins with a symbol does not begin with `1`. -/
theorem readCharacters_append (ht : SpellsTerm term power) (rest : List Char) :
    readCharacters (term ++ rest) = Reader.start.run (term ++ rest) := by
  obtain ⟨c, tail, rfl, hc⟩ := ht.exists_cons
  have hone : c ≠ '1' := by
    rintro rfl
    exact absurd hc (by decide)
  exact readCharacters_cons hone (tail ++ rest)

theorem readCharacters_term (ht : SpellsTerm term power) :
    readCharacters term = Reader.start.run term := by
  have h := readCharacters_append ht []
  rwa [List.append_nil] at h

theorem Spells.readCharacters_separator (h : Spells text powers) (hc : IsSeparator c) :
    readCharacters (text ++ c :: rest) = readCharacters text >>= fun units =>
      (Reader.afterSeparator c (text.length + 1) units).run rest := by
  induction h generalizing c rest with
  | @term term power ht =>
    rw [readCharacters_append ht, readCharacters_term ht]
    have hposition : Reader.start.position + term.length = term.length := Nat.zero_add _
    rw [Reader.run_term_separator ht rfl hc, hposition]
  | @reciprocal term name n ht =>
    have hposition : Reader.afterUnity.position + term.length = ('1' :: '/' :: term).length :=
      Nat.add_comm 2 _
    refine (Reader.run_term_separator ht rfl hc).trans ?_
    rw [hposition]
    rfl
  | @factor text term powers c' name n _ hc' ht ih =>
    rw [List.append_assoc, List.cons_append, ih hc', ih hc']
    cases readCharacters text with
    | error fault => rfl
    | ok units =>
      have hposition : (Reader.afterSeparator c' (text.length + 1) units).position + term.length =
          (text ++ c' :: term).length := by
        rw [List.length_append, List.length_cons, Nat.add_comm term.length, ← Nat.add_assoc]
        rfl
      refine (Reader.run_term_separator ht rfl hc).trans ?_
      rw [hposition]
      rfl

/-- A text of the grammar has its product as its unit, unless the powers are out of the range. -/
theorem Spells.answers (h : Spells text powers) : Answers (readCharacters text) powers := by
  induction h with
  | @term term power ht =>
    rw [readCharacters_term ht]
    exact Reader.run_term_answers ht rfl isProduct_dimensionless readable_nil
  | @reciprocal term name n ht =>
    exact Reader.run_term_answers ht rfl isProduct_dimensionless readable_nil
  | @factor text term powers c name n h hc ht ih =>
    rw [h.readCharacters_separator hc]
    by_cases hp : Readable powers
    · obtain ⟨units, hunits, hproduct⟩ := ih.value hp
      rw [hunits]
      rw [← signed_slash]
      exact Reader.run_term_answers ht rfl hproduct hp
    · obtain ⟨position, hfault⟩ := ih.fault hp
      rw [hfault]
      exact ⟨fun hreadable => absurd (readable_concat.1 hreadable).1 hp, fun _ => ⟨position, rfl⟩⟩

theorem exists_spells_of_readCharacters (h : readCharacters text = .ok u) :
    (text = [] ∨ text = ['1']) ∧ u = dimensionless ∨
      ∃ powers, Spells text powers ∧ Readable powers ∧ u.IsProduct powers := by
  unfold readCharacters at h
  split at h
  · exact .inl ⟨.inl rfl, (Except.ok.inj h).symm⟩
  · exact .inl ⟨.inr rfl, (Except.ok.inj h).symm⟩
  · exact .inr (Reader.hasRead_afterUnity.run h)
  · exact .inr (Reader.hasRead_start.run h)

theorem read_of_plain {text : String} (h : ∀ c ∈ text.toList, IsPlain c) :
    read text = readCharacters text.toList := by
  simp only [read]
  rw [if_neg, if_neg]
  · rw [List.any_eq_true]
    rintro ⟨c, hc, hblank⟩
    exact absurd hblank (Bool.eq_false_iff.1 (h c hc).2)
  · rw [List.any_eq_true]
    rintro ⟨c, hc, hascii⟩
    exact absurd (h c hc).1 (Nat.not_lt.2 (of_decide_eq_true hascii))

theorem readCharacters_of_read {text : String} (h : read text = .ok u) :
    readCharacters text.toList = .ok u := by
  simp only [read] at h
  split at h
  · cases h
  · split at h
    · cases h
    · exact h

/-- A text is read as the unit `u` exactly when it is one of the two texts of the dimensionless
unit, or is in the grammar with readable powers whose product is `u`. No number that the reader
forms on the way leaves the range, whatever the text. -/
theorem read_grammatical :
    (∀ text u, read text = .ok u ↔
      (text = "" ∨ text = "1") ∧ u = dimensionless ∨
        ∃ powers, Spells text.toList powers ∧ Readable powers ∧ u.IsProduct powers) ∧
      ∀ r : Reader, r.Reachable → r.InRange := by
  constructor
  · intro text u
    constructor
    · intro h
      rcases exists_spells_of_readCharacters (readCharacters_of_read h) with ⟨htext, hu⟩ | hspells
      · refine .inl ⟨htext.imp ?_ ?_, hu⟩
        · intro hnil
          exact String.toList_inj.1 hnil
        · intro hone
          exact String.toList_inj.1 hone
      · exact .inr hspells
    · rintro (⟨rfl | rfl, rfl⟩ | ⟨powers, hspells, hreadable, hproduct⟩)
      · rfl
      · rfl
      · obtain ⟨v, hv, hproduct'⟩ := hspells.answers.value hreadable
        rw [read_of_plain hspells.isPlain, hv, hproduct.eq hproduct']
  · intro r hr
    obtain ⟨text, hread⟩ := hr.hasRead
    exact hread.inRange

/-- A text that is read is in the grammar, a text of the grammar is read as its product although a
symbol cancels, and the digits so far are in the range where a text breaks off. -/
theorem read_grammatical_sample :
    (∃ powers, Spells "1/s+2.m".toList powers ∧ Readable powers ∧
      IsProduct ⟨[("m", ⟨1, 1⟩), ("s", ⟨-2, 1⟩)]⟩ powers) ∧
      read "m-02/m_/m-2" = .ok ⟨[("m_", ⟨-1, 1⟩)]⟩ ∧
        ∃ r : Reader, r.Reachable ∧
          r.phase = .inDigits ⟨0, ['m']⟩ true 2 9 ∧ r.InRange := by
  obtain ⟨haccepts, hrange⟩ := read_grammatical
  refine ⟨?_, ?_, ?_⟩
  · rcases (haccepts "1/s+2.m" ⟨[("m", ⟨1, 1⟩), ("s", ⟨-2, 1⟩)]⟩).1 (by decide) with ⟨h, -⟩ | h
    · exact absurd h (by decide)
    · exact h
  · refine (haccepts "m-02/m_/m-2" _).2 (.inr ?_)
    refine ⟨[("m", -2)] ++ [("m_", -1)] ++ [("m", 2)], ?_, ?_, ?_⟩
    · have hm : IsSymbol ['m'] := by decide
      have hm_ : IsSymbol ['m', '_'] := by decide
      have hlong : IsNumeral ['0', '2'] := by decide
      have htwo : IsNumeral ['2'] := by decide
      exact .factor (.factor (.term (.power hm (.written .minus hlong))) (.inr rfl)
        (.power hm_ .omitted)) (.inr rfl) (.power hm (.written .minus htwo))
    · have hone : Readable ([] ++ [("m", -2)]) :=
        readable_concat.2 ⟨readable_nil, by decide, by decide⟩
      exact readable_concat.2 ⟨readable_concat.2 ⟨hone, by decide, by decide⟩, by decide, by decide⟩
    · have hproduct := ((isProduct_dimensionless.set "m" (-2)).set "m_" (-1)).set "m" 2
      have hunit : ((dimensionless.set "m" (.ofInt (total "m" [] + -2))).set "m_"
          (.ofInt (total "m_" ([] ++ [("m", -2)]) + -1))).set "m"
            (.ofInt (total "m" ([] ++ [("m", -2)] ++ [("m_", -1)]) + 2)) =
          ⟨[("m_", ⟨-1, 1⟩)]⟩ := by decide
      exact hunit ▸ hproduct
  · have hm : Reader.Reachable _ := .step (c := 'm') .start rfl
    have hsign : Reader.Reachable _ := .step (c := '-') hm rfl
    have hdigit : Reader.Reachable _ := .step (c := '9') hsign rfl
    exact ⟨_, hdigit, rfl, hrange _ hdigit⟩

end QuantityCalculus.CompoundUnit
