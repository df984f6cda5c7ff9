import QuantityCalculus.Proofs.CompoundUnit.Grammar

/-!
What the reader of compound units has taken in. At every character the text so far is made of whole
terms, whose powers are multiplied up in the unit, and of the beginning of a term. So a text that
is read is in the grammar, and no number that is formed on the way leaves the range.
-/
namespace QuantityCalculus

theorem InWord.of_natAbs {n : Int} (h : InWord n.natAbs) : InWord n ∧ InWord (-n) := by
  unfold InWord at *
  omega

theorem InWord.of_le {m n : Int} (h : InWord n) (hm : 0 ≤ m) (hle : m ≤ n) : InWord m := by
  unfold InWord at *
  omega

namespace CompoundUnit

variable {u : CompoundUnit} {powers : List (String × Int)} {n : Int} {c : Char}

/-- The unit for readable powers, and a fault about the range for others. -/
structure Answers (result : Except UnitTextFault CompoundUnit) (powers : List (String × Int)) :
    Prop where
  value : Readable powers → ∃ u, result = .ok u ∧ u.IsProduct powers
  fault : ¬ Readable powers → ∃ position, result = .error (.exponentRange position)

theorem Answers.of_ok {result : Except UnitTextFault CompoundUnit} (h : Answers result powers)
    (hu : result = .ok u) : Readable powers ∧ u.IsProduct powers := by
  by_cases hp : Readable powers
  · obtain ⟨v, hv, hproduct⟩ := h.value hp
    obtain rfl : u = v := Except.ok.inj (hu.symm.trans hv)
    exact ⟨hp, hproduct⟩
  · obtain ⟨position, hfault⟩ := h.fault hp
    cases hu.symm.trans hfault

/-- The text before a term, and whether the term divides. -/
inductive Leads : List Char → List (String × Int) → Bool → Prop where
  | start : Leads [] [] false
  | reciprocal : Leads ['1', '/'] [] true
  | separator {text : List Char} {powers : List (String × Int)} {c : Char}
      (h : Spells text powers) (hc : IsSeparator c) : Leads (text ++ [c]) powers (c = '/')

theorem signed_slash (c : Char) (n : Int) :
    Reader.signed (c = '/') n = if c = '/' then -n else n := by
  simp only [Reader.signed, decide_eq_true_eq]

theorem Leads.spells {lead term : List Char} {divides : Bool} {name : String}
    (h : Leads lead powers divides) (ht : SpellsTerm term (name, n)) :
    Spells (lead ++ term) (powers ++ [(name, Reader.signed divides n)]) := by
  cases h with
  | start => exact .term ht
  | reciprocal => exact .reciprocal ht
  | separator h hc =>
    rw [List.append_assoc, signed_slash]
    exact .factor h hc ht

/-- The part of a term that has been read in a phase. -/
inductive Phase.Follows : Phase → List Char → Prop where
  | beforeSymbol : Follows .beforeSymbol []
  | inSymbol {head : TermHead} (hs : IsSymbol head.symbol) : Follows (.inSymbol head) head.symbol
  | afterSign {head : TermHead} {sign : List Char} {negative : Bool} (hs : IsSymbol head.symbol)
      (hsign : SpellsSign sign negative) :
      Follows (.afterSign head negative) (head.symbol ++ sign)
  | inDigits {head : TermHead} {sign digits : List Char} {negative : Bool} {first : Nat}
      (hs : IsSymbol head.symbol) (hsign : SpellsSign sign negative) (hd : IsNumeral digits)
      (hword : InWord (numeral digits)) :
      Follows (.inDigits head negative first (numeral digits)) (head.symbol ++ (sign ++ digits))

/-- The term that a text would end with here. -/
def Phase.term? : Phase → Option (TermHead × Int)
  | .beforeSymbol | .afterSign _ _ => none
  | .inSymbol head => some (head, 1)
  | .inDigits head negative _ value => some (head, Reader.signed negative value)

theorem numeral_nonneg (digits : List Char) : 0 ≤ numeral digits :=
  Int.natCast_nonneg _

theorem natAbs_signed (negative : Bool) (n : Int) :
    (Reader.signed negative n).natAbs = n.natAbs := by
  cases negative
  · rfl
  · exact Int.natAbs_neg n

theorem Phase.Follows.term {phase : Phase} {part : List Char} {head : TermHead}
    (h : phase.Follows part) (ht : phase.term? = some (head, n)) :
    SpellsTerm part (String.ofList head.symbol, n) ∧ InWord n.natAbs := by
  cases h with
  | beforeSymbol => cases ht
  | inSymbol hs =>
    cases ht
    have hterm := SpellsTerm.power hs .omitted
    rw [List.append_nil] at hterm
    exact ⟨hterm, by decide⟩
  | afterSign => cases ht
  | @inDigits _ _ digits _ _ hs hsign hd hword =>
    cases ht
    refine ⟨.power hs (.written hsign hd), ?_⟩
    rw [natAbs_signed, Int.natAbs_of_nonneg (numeral_nonneg digits)]
    exact hword

namespace Reader

variable {r r' : Reader} {head : TermHead} {text : List Char}

theorem close_answers (h : r.units.IsProduct powers) (hp : Readable powers)
    (hn : InWord n.natAbs) :
    Answers (r.close head n) (powers ++ [(String.ofList head.symbol, signed r.divides n)]) := by
  have hsigned : InWord (signed r.divides n).natAbs := by rwa [natAbs_signed]
  have haccumulate := h.accumulate?_eq (hp.sums.total (String.ofList head.symbol))
    (InWord.of_natAbs hsigned).1
  rw [close, ← signed, haccumulate, inWord?]
  constructor
  · intro hreadable
    rw [if_pos (readable_concat.1 hreadable).2.2]
    exact ⟨_, rfl, h.set _ _⟩
  · intro hunreadable
    rw [if_neg fun hsum => hunreadable (readable_concat.2 ⟨hp, hsigned, hsum⟩)]
    exact ⟨head.start, rfl⟩

/-- The reader after a separator. -/
def afterSeparator (c : Char) (position : Nat) (units : CompoundUnit) : Reader :=
  ⟨position, units, c = '/', .beforeSymbol⟩

theorem separate_eq_ok (h : r.separate head n c = .ok r') :
    IsSeparator c ∧ ∃ units, r.close head n = .ok units ∧
      r' = afterSeparator c (r.position + 1) units := by
  unfold separate at h
  cases hc : r.close head n with
  | error fault =>
    rw [hc] at h
    cases h
  | ok units =>
    rw [hc] at h
    change (if c = '.' then _ else if c = '/' then _ else _) = _ at h
    split at h
    · rename_i hpoint
      subst hpoint
      exact ⟨.inl rfl, units, rfl, (Except.ok.inj h).symm⟩
    · split at h
      · rename_i hslash
        subst hslash
        exact ⟨.inr rfl, units, rfl, (Except.ok.inj h).symm⟩
      · cases h

theorem digit_eq (negative : Bool) (first : Nat) (value : Int) :
    r.digit head negative first value c =
      if InWord (value * 10 + digitOf c) then
        .ok ⟨r.position + 1, r.units, r.divides,
          .inDigits head negative first (value * 10 + digitOf c)⟩
      else .error (.exponentRange first) := by
  unfold digit inWord?
  by_cases hword : InWord (value * 10 + digitOf c) <;> simp only [hword, if_true, if_false]

/-- The text so far: whole terms, multiplied up, and the beginning of one. -/
def HasRead (r : Reader) (text : List Char) : Prop :=
  ∃ lead part powers, text = lead ++ part ∧ Leads lead powers r.divides ∧
    r.units.IsProduct powers ∧ Readable powers ∧ r.phase.Follows part

theorem hasRead_start : start.HasRead [] :=
  ⟨[], [], [], rfl, .start, isProduct_dimensionless, readable_nil, .beforeSymbol⟩

theorem hasRead_afterUnity : afterUnity.HasRead ['1', '/'] :=
  ⟨['1', '/'], [], [], rfl, .reciprocal, isProduct_dimensionless, readable_nil, .beforeSymbol⟩

theorem digitOf_eq (hc : c.isDigit = true) : digitOf c = (c.toNat - '0'.toNat : Nat) := by
  have hle : '0'.toNat ≤ c.toNat := by
    simp only [Char.isDigit, Bool.and_eq_true, decide_eq_true_eq, ge_iff_le,
      UInt32.le_iff_toNat_le] at hc
    exact hc.1
  exact (Int.ofNat_sub hle).symm

theorem numeral_concat (digits : List Char) (hc : c.isDigit = true) :
    numeral (digits ++ [c]) = numeral digits * 10 + digitOf c := by
  rw [numeral, numeral, digitOf_eq hc, Nat.ofDigitChars_append, Nat.ofDigitChars_cons,
    Nat.ofDigitChars_nil]
  omega

theorem IsNumeral.concat {digits : List Char} (hd : ∀ d ∈ digits, d.isDigit = true)
    (hc : c.isDigit = true) : IsNumeral (digits ++ [c]) := by
  refine ⟨by simp, ?_⟩
  intro d hm
  rcases List.mem_append.1 hm with hm | hm
  · exact hd d hm
  · exact List.mem_singleton.1 hm ▸ hc

/-- A digit goes to the digits before it, of which there may be none. -/
theorem follows_of_digit {sign : List Char} (digits : List Char) {negative : Bool} {first : Nat}
    (hs : IsSymbol head.symbol) (hsign : SpellsSign sign negative)
    (hd : ∀ d ∈ digits, d.isDigit = true) (hc : c.isDigit = true)
    (h : r.digit head negative first (numeral digits) c = .ok r') :
    r'.phase.Follows (head.symbol ++ (sign ++ (digits ++ [c]))) ∧ r'.units = r.units ∧
      r'.divides = r.divides := by
  rw [digit_eq, ← numeral_concat digits hc] at h
  split at h
  · rename_i hword
    obtain rfl := Except.ok.inj h
    exact ⟨.inDigits hs hsign (IsNumeral.concat hd hc) hword, rfl, rfl⟩
  · cases h

theorem follows_of_separate {lead part : List Char} (hlead : Leads lead powers r.divides)
    (hproduct : r.units.IsProduct powers) (hp : Readable powers)
    (hterm : SpellsTerm part (String.ofList head.symbol, n)) (hn : InWord n.natAbs)
    (h : r.separate head n c = .ok r') : r'.HasRead (lead ++ part ++ [c]) := by
  obtain ⟨hc, units, hclose, rfl⟩ := separate_eq_ok h
  obtain ⟨hreadable, hunits⟩ := (close_answers hproduct hp hn).of_ok hclose
  exact ⟨_, [], _, (List.append_nil _).symm, .separator (hlead.spells hterm) hc, hunits, hreadable,
    .beforeSymbol⟩

theorem HasRead.step (h : r.HasRead text) (hs : r.step c = .ok r') :
    r'.HasRead (text ++ [c]) := by
  obtain ⟨lead, part, powers, rfl, hlead, hproduct, hp, hpart⟩ := h
  -- Within a term only the part of the term grows.
  have hgrown : ∀ part', r'.phase.Follows part' → r'.units = r.units → r'.divides = r.divides →
      part' = part ++ [c] → r'.HasRead (lead ++ part ++ [c]) := by
    intro part' hphase hunits hdivides heq
    refine ⟨lead, part', powers, by rw [heq, List.append_assoc], ?_, ?_, hp, hphase⟩
    · rwa [hdivides]
    · rwa [hunits]
  obtain ⟨position, units, divides, phase⟩ := r
  have hterm : ∀ {head n}, phase.term? = some (head, n) →
      SpellsTerm part (String.ofList head.symbol, n) ∧ InWord n.natAbs := hpart.term
  cases hpart with
  | beforeSymbol =>
    simp only [Reader.step] at hs
    split at hs
    · rename_i hc
      obtain rfl := Except.ok.inj hs
      exact hgrown [c] (.inSymbol ⟨by simp, by simpa using hc⟩) rfl rfl rfl
    · cases hs
  | @inSymbol head hsymbol =>
    simp only [Reader.step] at hs
    split at hs
    · rename_i hc
      obtain rfl := Except.ok.inj hs
      refine hgrown _ (.inSymbol ⟨by simp, ?_⟩) rfl rfl rfl
      intro d hd
      rcases List.mem_append.1 hd with hd | hd
      · exact hsymbol.2 d hd
      · exact List.mem_singleton.1 hd ▸ hc
    · split at hs
      · rename_i hc
        obtain rfl := Except.ok.inj hs
        rcases hc with rfl | rfl
        · exact hgrown _ (.afterSign hsymbol .minus) rfl rfl rfl
        · exact hgrown _ (.afterSign hsymbol .plus) rfl rfl rfl
      · split at hs
        · rename_i hc
          obtain ⟨hphase, hunits, hdivides⟩ :=
            follows_of_digit [] hsymbol .omitted (by simp) hc hs
          exact hgrown _ hphase hunits hdivides rfl
        · exact follows_of_separate hlead hproduct hp (hterm rfl).1 (hterm rfl).2 hs
  | @afterSign head sign negative hsymbol hsign =>
    simp only [Reader.step] at hs
    split at hs
    · rename_i hc
      obtain ⟨hphase, hunits, hdivides⟩ :=
        follows_of_digit [] hsymbol hsign (by simp) hc hs
      exact hgrown _ hphase hunits hdivides (by simp)
    · cases hs
  | @inDigits head sign digits negative first hsymbol hsign hdigits hword =>
    simp only [Reader.step] at hs
    split at hs
    · rename_i hc
      obtain ⟨hphase, hunits, hdivides⟩ := follows_of_digit digits hsymbol hsign hdigits.2 hc hs
      exact hgrown _ hphase hunits hdivides (by simp)
    · exact follows_of_separate hlead hproduct hp (hterm rfl).1 (hterm rfl).2 hs

theorem finish_of_term? (h : r.phase.term? = some (head, n)) : r.finish = r.close head n := by
  unfold finish
  cases hphase : r.phase with
  | beforeSymbol | afterSign => cases hphase ▸ h
  | inSymbol | inDigits =>
    cases hphase ▸ h
    rfl

theorem exists_term?_of_finish (h : r.finish = .ok u) :
    ∃ head n, r.phase.term? = some (head, n) := by
  unfold finish at h
  cases hphase : r.phase with
  | beforeSymbol | afterSign => cases hphase ▸ h
  | inSymbol | inDigits => exact ⟨_, _, rfl⟩

theorem HasRead.finish (h : r.HasRead text) (hf : r.finish = .ok u) :
    ∃ powers, Spells text powers ∧ Readable powers ∧ u.IsProduct powers := by
  obtain ⟨lead, part, powers, rfl, hlead, hproduct, hp, hpart⟩ := h
  obtain ⟨head, n, ht⟩ := exists_term?_of_finish hf
  obtain ⟨hterm, hn⟩ := hpart.term ht
  rw [finish_of_term? ht] at hf
  exact ⟨_, hlead.spells hterm, (close_answers hproduct hp hn).of_ok hf⟩

theorem HasRead.run {characters : List Char} (h : r.HasRead text)
    (hr : r.run characters = .ok u) :
    ∃ powers, Spells (text ++ characters) powers ∧ Readable powers ∧ u.IsProduct powers := by
  induction characters generalizing r text with
  | nil =>
    rw [List.append_nil]
    exact h.finish hr
  | cons c rest ih =>
    rw [Reader.run] at hr
    cases hs : r.step c with
    | error fault =>
      rw [hs] at hr
      cases hr
    | ok r' =>
      rw [hs] at hr
      rw [List.append_cons]
      exact ih (h.step hs) hr

/-- The readers that a text can lead to. -/
inductive Reachable : Reader → Prop where
  | start : Reachable start
  | afterUnity : Reachable afterUnity
  | step {r r' : Reader} {c : Char} (h : Reachable r) (hs : r.step c = .ok r') : Reachable r'

theorem Reachable.hasRead (h : r.Reachable) : ∃ text, r.HasRead text := by
  induction h with
  | start => exact ⟨_, hasRead_start⟩
  | afterUnity => exact ⟨_, hasRead_afterUnity⟩
  | step _ hs ih =>
    obtain ⟨text, hread⟩ := ih
    exact ⟨_, hread.step hs⟩

/-- The number of the digits so far fits in a word, and so does the exponent that they give, with
its own sign and with that of the separator. -/
def InRange (r : Reader) : Prop :=
  (∀ head negative first value, r.phase = .inDigits head negative first value → InWord value) ∧
    ∀ head n, r.phase.term? = some (head, n) → InWord n ∧ InWord (signed r.divides n)

theorem HasRead.inRange (h : r.HasRead text) : r.InRange := by
  obtain ⟨lead, part, powers, -, -, -, -, hpart⟩ := h
  constructor
  · intro head negative first value hphase
    rw [hphase] at hpart
    cases hpart with
    | inDigits _ _ _ hword => exact hword
  · intro head n ht
    obtain ⟨hword, hopposite⟩ := InWord.of_natAbs (hpart.term ht).2
    refine ⟨hword, ?_⟩
    cases r.divides
    · exact hword
    · exact hopposite

end Reader

end CompoundUnit

end QuantityCalculus
