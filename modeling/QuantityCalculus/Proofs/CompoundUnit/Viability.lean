import QuantityCalculus.Proofs.CompoundUnit.Reading

/-!
Where the reader stops for want of something. What stands before that place can be completed to the
text of a unit, and what reaches beyond it cannot, so that the place is that of the first character
that is wrong.
-/
namespace QuantityCalculus.CompoundUnit

variable {u : CompoundUnit} {powers : List (String × Int)} {text characters rest : List Char}
variable {position : Nat} {what : Expectation} {name : String} {n : Int} {c : Char}

/-- An exponent of zero may be added to any powers. -/
theorem Readable.concat_zero (h : Readable powers) (name : String) :
    Readable (powers ++ [(name, 0)]) :=
  readable_concat.2 ⟨h, by decide, (add_zero (total name powers)).symm ▸ h.sums.total name⟩

namespace Reader

variable {r r' next : Reader} {head : TermHead}

/-- What has to come next in any text that is read. -/
inductive Wants (r : Reader) : Expectation → Prop where
  | symbol (h : r.phase = .beforeSymbol) : Wants r .symbol
  | digits {head : TermHead} {negative : Bool} (h : r.phase = .afterSign head negative) :
      Wants r .digits
  | separator {head : TermHead} {n : Int} {units : CompoundUnit}
      (h : r.phase.term? = some (head, n)) (hc : r.close head n = .ok units) : Wants r .separator

theorem close_ne_expected : r.close head n ≠ .error (.expected position what) := by
  unfold close
  split <;> nofun

theorem wants_of_separate (ht : r.phase.term? = some (head, n))
    (h : r.separate head n c = .error (.expected position what)) :
    position = r.position ∧ r.Wants what := by
  unfold separate at h
  cases hc : r.close head n with
  | error fault =>
    rw [hc] at h
    obtain rfl : fault = .expected position what := Except.error.inj h
    exact absurd hc close_ne_expected
  | ok units =>
    rw [hc] at h
    change (if c = '.' then _ else if c = '/' then _ else _) = _ at h
    split at h
    · cases h
    · split at h
      · cases h
      · cases h
        exact ⟨rfl, .separator ht hc⟩

theorem position_of_separate (h : r.separate head n c = .ok r') :
    r'.position = r.position + 1 := by
  obtain ⟨-, units, -, rfl⟩ := separate_eq_ok h
  rfl

/-- What can come of a character: the term goes on, it ends, its digits leave the range, or the
character cannot be taken. -/
inductive StepsTo (r : Reader) (c : Char) : Except UnitTextFault Reader → Prop where
  | within (phase : Phase) : StepsTo r c (.ok ⟨r.position + 1, r.units, r.divides, phase⟩)
  | separates {head : TermHead} {n : Int} (ht : r.phase.term? = some (head, n)) :
      StepsTo r c (r.separate head n c)
  | overflows (first : Nat) : StepsTo r c (.error (.exponentRange first))
  | stuck {what : Expectation} (hw : r.Wants what) :
      StepsTo r c (.error (.expected r.position what))

theorem stepsTo_digit {negative : Bool} {first : Nat} {value : Int} :
    r.StepsTo c (r.digit head negative first value c) := by
  rw [digit_eq]
  split
  · exact .within _
  · exact .overflows first

theorem stepsTo (r : Reader) (c : Char) : r.StepsTo c (r.step c) := by
  unfold step
  split
  · rename_i hphase
    split
    · exact .within _
    · exact .stuck (.symbol hphase)
  · rename_i head hphase
    split
    · exact .within _
    · split
      · exact .within _
      · split
        · exact stepsTo_digit
        · exact .separates (by rw [hphase]; rfl)
  · rename_i head negative hphase
    split
    · exact stepsTo_digit
    · exact .stuck (.digits hphase)
  · rename_i head negative first value hphase
    split
    · exact stepsTo_digit
    · exact .separates (by rw [hphase]; rfl)

theorem position_of_step (h : r.step c = .ok r') : r'.position = r.position + 1 := by
  have hsteps := r.stepsTo c
  generalize hresult : r.step c = result at hsteps
  cases hsteps with
  | within phase =>
    obtain rfl := Except.ok.inj (h.symm.trans hresult)
    rfl
  | separates ht => exact position_of_separate (hresult.symm.trans h)
  | overflows first => cases h.symm.trans hresult
  | stuck hw => cases h.symm.trans hresult

theorem wants_of_step (h : r.step c = .error (.expected position what)) :
    position = r.position ∧ r.Wants what := by
  have hsteps := r.stepsTo c
  generalize hresult : r.step c = result at hsteps
  cases hsteps with
  | within phase => cases h.symm.trans hresult
  | separates ht => exact wants_of_separate ht (hresult.symm.trans h)
  | overflows first => cases h.symm.trans hresult
  | stuck hw =>
    cases h.symm.trans hresult
    exact ⟨rfl, hw⟩

theorem wants_of_finish (h : r.finish = .error (.expected position what)) :
    position = r.position ∧ r.Wants what := by
  unfold finish at h
  split at h
  · rename_i hphase
    cases h
    exact ⟨rfl, .symbol hphase⟩
  · exact absurd h close_ne_expected
  · rename_i head negative hphase
    cases h
    exact ⟨rfl, .digits hphase⟩
  · exact absurd h close_ne_expected

/-- With a zero exponent nothing can leave the range, so that the text can be completed. -/
theorem HasRead.completes (h : r.HasRead text) (hw : r.Wants what) :
    ∃ rest u, r.run rest = .ok u := by
  obtain ⟨lead, part, powers, -, -, hproduct, hp, -⟩ := h
  have hzero (negative : Bool) : signed negative 0 = 0 := by cases negative <;> rfl
  cases hw with
  | symbol hphase =>
    have hsymbol : IsSymbol ['m'] := by decide
    have hdigits : IsNumeral ['0'] := by decide
    have hterm : SpellsTerm ['m', '0'] ("m", 0) := .power hsymbol (.written .omitted hdigits)
    have hanswers := run_term_answers hterm hphase hproduct hp
    rw [hzero] at hanswers
    obtain ⟨u, hu, -⟩ := hanswers.value (hp.concat_zero "m")
    exact ⟨_, u, hu⟩
  | @digits head negative hphase =>
    have hdigits : IsNumeral ['0'] := by decide
    have hends : r.EndsTerm ['0'] head (signed negative 0) :=
      endsTerm_numeral hdigits (.inr hphase)
    have hanswers := hends.run_answers hproduct hp
    rw [hzero, hzero] at hanswers
    obtain ⟨u, hu, -⟩ := hanswers.value (hp.concat_zero _)
    exact ⟨_, u, hu⟩
  | separator ht hc => exact ⟨[], _, (finish_of_term? ht).trans hc⟩

/-- The reader has moved by the characters it took, and they belong to the text so far. -/
theorem HasRead.after (h : r.HasRead text) (ha : r.after characters = .ok next) :
    next.HasRead (text ++ characters) ∧ next.position = r.position + characters.length := by
  induction characters generalizing r text with
  | nil =>
    obtain rfl := Except.ok.inj ha
    exact ⟨(List.append_nil text).symm ▸ h, rfl⟩
  | cons c rest ih =>
    rw [after_cons] at ha
    cases hs : r.step c with
    | error fault =>
      rw [hs] at ha
      cases ha
    | ok r' =>
      rw [hs] at ha
      obtain ⟨hread, hposition⟩ := ih (h.step hs) ha
      refine ⟨?_, ?_⟩
      · rwa [List.append_assoc] at hread
      · rw [hposition, position_of_step hs, List.length_cons]
        omega

/-- A run breaks off at a character that cannot be taken, or for want of one. -/
theorem exists_after_of_run {fault : UnitTextFault} (h : r.run characters = .error fault) :
    ∃ before rest next, characters = before ++ rest ∧ r.after before = .ok next ∧
      (rest = [] ∧ next.finish = .error fault ∨
        ∃ c tail, rest = c :: tail ∧ next.step c = .error fault) := by
  induction characters generalizing r with
  | nil => exact ⟨[], [], r, rfl, rfl, .inl ⟨rfl, h⟩⟩
  | cons c tail ih =>
    rw [run] at h
    cases hs : r.step c with
    | error fault' =>
      rw [hs] at h
      obtain rfl : fault' = fault := Except.error.inj h
      exact ⟨[], c :: tail, r, rfl, rfl, .inr ⟨c, tail, rfl, hs⟩⟩
    | ok r' =>
      rw [hs] at h
      obtain ⟨before, rest, next, rfl, hafter, hstop⟩ := ih h
      refine ⟨c :: before, rest, next, rfl, ?_, hstop⟩
      rw [after_cons, hs]
      exact hafter

theorem HasRead.run_expected (h : r.HasRead text)
    (hr : r.run characters = .error (.expected position what)) :
    ∃ before rest, characters = before ++ rest ∧ position = r.position + before.length ∧
      (∃ more u, r.run (before ++ more) = .ok u) ∧
        ∀ c ∈ rest.head?, ∀ more u, r.run (before ++ c :: more) ≠ .ok u := by
  obtain ⟨before, rest, next, rfl, hafter, hstop⟩ := exists_after_of_run hr
  obtain ⟨hread, hnext⟩ := h.after hafter
  have hwants : position = next.position ∧ next.Wants what := by
    rcases hstop with ⟨-, hfinish⟩ | ⟨c, tail, -, hstep⟩
    · exact wants_of_finish hfinish
    · exact wants_of_step hstep
  obtain ⟨more, u, hmore⟩ := hread.completes hwants.2
  refine ⟨before, rest, rfl, hwants.1.trans hnext, ⟨more, u, ?_⟩, ?_⟩
  · rw [run_append, hafter]
    exact hmore
  · intro c hc more u hu
    rcases hstop with ⟨rfl, -⟩ | ⟨c', tail, rfl, hstep⟩
    · cases hc
    · obtain rfl : c' = c := Option.some.inj hc
      rw [run_append, hafter] at hu
      change next.run (c' :: more) = .ok u at hu
      rw [Reader.run, hstep] at hu
      cases hu

end Reader

/-- Some text that begins with these characters is read. -/
def Viable (characters : List Char) : Prop :=
  ∃ rest u, read (String.ofList (characters ++ rest)) = .ok u

theorem read_of_readCharacters (h : readCharacters characters = .ok u) :
    read (String.ofList characters) = .ok u := by
  have hread : read (String.ofList characters) = readCharacters characters := by
    rcases exists_spells_of_readCharacters h with ⟨rfl | rfl, -⟩ | ⟨powers, hspells, -⟩
    · rfl
    · rfl
    · have hplain := hspells.isPlain
      rw [← String.toList_ofList (l := characters)] at hplain
      rw [read_of_plain hplain, String.toList_ofList]
  exact hread.trans h

theorem viable_iff : Viable characters ↔ ∃ rest u, readCharacters (characters ++ rest) = .ok u := by
  constructor
  · rintro ⟨rest, u, h⟩
    have hread := readCharacters_of_read h
    rw [String.toList_ofList] at hread
    exact ⟨rest, u, hread⟩
  · rintro ⟨rest, u, h⟩
    exact ⟨rest, u, read_of_readCharacters h⟩

theorem viable_cons_iff (hc : c ≠ '1') :
    Viable (c :: rest) ↔ ∃ more u, Reader.start.run (c :: (rest ++ more)) = .ok u := by
  rw [viable_iff]
  simp only [List.cons_append, readCharacters_cons hc]

theorem viable_quotient_iff :
    Viable ('1' :: '/' :: rest) ↔ ∃ more u, Reader.afterUnity.run (rest ++ more) = .ok u :=
  viable_iff

/-- A leading `1` that does not begin a quotient. -/
def LoneUnity (characters : List Char) : Prop :=
  ∃ rest, characters = '1' :: rest ∧ rest.head? ≠ some '/'

/-- The characters before the position are the ones that were taken, a leading `1/` among them. -/
theorem readCharacters_expected
    (h : readCharacters characters = .error (.expected position what)) :
    ∃ before rest, characters = before ++ rest ∧ position = before.length ∧ Viable before ∧
      (¬ LoneUnity characters → ∀ c ∈ rest.head?, ¬ Viable (before ++ [c])) := by
  unfold readCharacters at h
  split at h
  · cases h
  · cases h
  · rename_i characters
    obtain ⟨before, rest, rfl, rfl, hmore, hstop⟩ := Reader.hasRead_afterUnity.run_expected h
    refine ⟨'1' :: '/' :: before, rest, rfl, Nat.add_comm 2 _, viable_quotient_iff.2 hmore, ?_⟩
    intro _ c hc hviable
    rw [List.cons_append, List.cons_append] at hviable
    obtain ⟨more, u, hu⟩ := viable_quotient_iff.1 hviable
    rw [List.append_assoc] at hu
    exact hstop c hc more u hu
  · rename_i hquotient
    obtain ⟨before, rest, rfl, rfl, hmore, hstop⟩ := Reader.hasRead_start.run_expected h
    have hposition : Reader.start.position + before.length = before.length := Nat.zero_add _
    cases before with
    | nil =>
      refine ⟨[], rest, rfl, hposition, viable_iff.2 ⟨[], dimensionless, rfl⟩, ?_⟩
      intro hunity c hc hviable
      obtain ⟨tail, rfl⟩ : ∃ tail, rest = c :: tail := List.head?_eq_some_iff.1 hc
      have hone : c ≠ '1' := by
        rintro rfl
        refine hunity ⟨tail, rfl, ?_⟩
        intro hslash
        obtain ⟨tail', rfl⟩ := List.head?_eq_some_iff.1 hslash
        exact hquotient tail' rfl
      obtain ⟨more, u, hu⟩ := (viable_cons_iff hone).1 hviable
      exact hstop c hc more u hu
    | cons first tail =>
      -- No text of terms begins with `1`.
      have hone : first ≠ '1' := by
        rintro rfl
        obtain ⟨more, u, hu⟩ := hmore
        cases hu
      refine ⟨first :: tail, rest, rfl, hposition, (viable_cons_iff hone).2 hmore, ?_⟩
      intro _ c hc hviable
      rw [List.cons_append] at hviable
      obtain ⟨more, u, hu⟩ := (viable_cons_iff hone).1 hviable
      rw [List.append_assoc] at hu
      exact hstop c hc more u hu

theorem readCharacters_of_expected {text : String}
    (h : read text = .error (.expected position what)) :
    (∀ c ∈ text.toList, c.toNat < 128) ∧
      readCharacters text.toList = .error (.expected position what) := by
  simp only [read] at h
  split at h
  · cases h
  · rename_i hascii
    split at h
    · cases h
    · refine ⟨?_, h⟩
      intro c hc
      by_contra hbeyond
      exact hascii (List.any_eq_true.2 ⟨c, hc, decide_eq_true (Nat.not_lt.1 hbeyond)⟩)

/-- A text that is turned down for its syntax has no character outside ASCII, so that the position
counts its bytes, and the text before that position can be completed. With the next character it
cannot, apart from a text with a leading `1` that does not begin a quotient. Where there is no next
character the text is only unfinished. -/
theorem syntax_position_exact (text : String) (position : Nat) (what : Expectation)
    (h : read text = .error (.expected position what)) :
    (∀ c ∈ text.toList, c.toNat < 128) ∧ position ≤ text.toList.length ∧
      Viable (text.toList.take position) ∧
      (position < text.toList.length → ¬ LoneUnity text.toList →
        ¬ Viable (text.toList.take (position + 1))) ∧
      (position = text.toList.length → Viable text.toList ∧ ∀ u, read text ≠ .ok u) := by
  obtain ⟨hascii, hcharacters⟩ := readCharacters_of_expected h
  obtain ⟨before, rest, htext, rfl, hviable, hstop⟩ := readCharacters_expected hcharacters
  have hlength : text.toList.length = before.length + rest.length := by
    rw [htext, List.length_append]
  have hbefore : text.toList.take before.length = before := by
    rw [htext, List.take_left]
  refine ⟨hascii, by omega, hbefore.symm ▸ hviable, ?_, ?_⟩
  · intro hlt hunity
    have hrest : rest ≠ [] := by
      rintro rfl
      rw [List.length_nil] at hlength
      omega
    obtain ⟨c, tail, rfl⟩ := List.exists_cons_of_ne_nil hrest
    have hnext : text.toList.take (before.length + 1) = before ++ [c] := by
      rw [htext, List.take_length_add_append]
      rfl
    rw [hnext]
    exact hstop hunity c rfl
  · intro hend
    obtain rfl : rest = [] := List.length_eq_zero_iff.1 (by omega)
    rw [List.append_nil] at htext
    refine ⟨htext ▸ hviable, ?_⟩
    intro u hu
    cases h.symm.trans hu

/-- A text with a wrong character, and one that is unfinished although the exponent of a symbol is
already the greatest. -/
theorem syntax_position_exact_sample :
    read "m2.s^2" = .error (.expected 4 .separator) ∧
      Viable ['m', '2', '.', 's'] ∧ ¬ Viable ['m', '2', '.', 's', '^'] ∧
      read "m9223372036854775807.m" = .error (.exponentRange 21) ∧
      read "m9223372036854775807." = .error (.expected 21 .symbol) ∧
      Viable "m9223372036854775807.".toList := by
  have hwrong : read "m2.s^2" = .error (.expected 4 .separator) := by decide
  have hunfinished : read "m9223372036854775807." = .error (.expected 21 .symbol) := by decide
  obtain ⟨-, -, hviable, hstop, -⟩ := syntax_position_exact _ _ _ hwrong
  obtain ⟨-, -, -, -, hend⟩ := syntax_position_exact _ _ _ hunfinished
  refine ⟨hwrong, hviable, hstop (by decide) ?_, by decide, hunfinished, (hend rfl).1⟩
  rintro ⟨rest, hunity, -⟩
  exact absurd hunity (by simp)

/-- After a leading `1` the position is that of the `1`, although the text `1` is read. -/
example : read "1.m" = .error (.expected 0 .symbol) ∧ Viable ['1'] :=
  ⟨by decide, [], dimensionless, rfl⟩

end QuantityCalculus.CompoundUnit
