import QuantityCalculus.Proofs.Evaluation.Depth

/-!
A value hides nothing. A tree with a value is complete, and so are its functions; all that stands
in it has values too, the terms of sums at every integer of their ranges.
-/
namespace QuantityCalculus.Scope

variable {s t : Scope} {e p q : Equation} {v : Value}

/-- Nothing is wrong with the root of the tree as such. -/
def Accepts (s : Scope) : Equation → Prop
  | .signed operator _ => operator ≠ .plusMinus
  | .binary operator _ _ => operator ≠ .plusMinus
  | .call name _ => ∃ f, s.function? name = some f
  | .comparison _ _ _ | .missingOperand | .missingOperator _ _ | .missingSign _
  | .missingFunction _ | .unreadable _ => False
  | .number _ | .reference _ | .block _ | .matrix _ => True

theorem Accepts.congr (h : t.Accepts e) (hf : t.functions = s.functions) : s.Accepts e := by
  cases e with
  | call name arguments =>
    obtain ⟨f, hn⟩ := h
    exact ⟨f, by rw [function?, ← hf]; exact hn⟩
  | _ => exact h

/-- The trees in `e` that stand neither in the first nor in the fourth argument of a sum. -/
inductive Exposed (s : Scope) (e : Equation) : Equation → Prop where
  | refl : Exposed s e e
  | part {p q : Equation} (h : Exposed s e p) (hq : q ∈ p.parts)
      (hp : ∀ name arguments, p = .call name arguments →
        s.function? name ≠ some (.builtin .sum)) : Exposed s e q
  | argument {name : String} {arguments : List Equation} {place : Nat} {q : Equation}
      (h : Exposed s e (.call name arguments)) (hq : arguments[place]? = some q)
      (hfirst : place ≠ 0) (hterm : place ≠ 3) : Exposed s e q

theorem accepts_of_evaluate (h : s.evaluate e = .ok v) : s.Accepts e := by
  obtain ⟨-, h⟩ := evaluate_eq_ok.1 h
  cases e with
  | signed operator operand =>
    rintro rfl
    exact absurd h Outcome.blame_ne_ok
  | binary operator left right =>
    rintro rfl
    exact absurd h Outcome.blame_ne_ok
  | call name arguments =>
    cases hf : s.function? name with
    | none => simp [evaluateNode, hf] at h
    | some f => exact ⟨f, hf⟩
  | number | reference | block | matrix => trivial
  | comparison | missingOperand | missingOperator | missingSign | missingFunction | unreadable =>
    exact absurd h Outcome.blame_ne_ok

theorem isStrict_of_function? (hs : s.Unhosted) {name : String} {f : Callable}
    (hf : s.function? name = some f) (hsum : f ≠ .builtin .sum) : f.IsStrict := by
  cases f with
  | builtin b =>
    rintro rfl
    exact hsum rfl
  | numeric f => trivial
  | hosted run => exact absurd hf hs.not_hosted
  | defined parameters body captured => trivial

/-- A node with a value has started the evaluation of all its parts, if it is no sum. -/
theorem starts_of_part (hs : s.Unhosted) (h : s.evaluate e = .ok v) (hp : p ∈ e.parts)
    (hsum : ∀ name arguments, e = .call name arguments →
      s.function? name ≠ some (.builtin .sum)) : s.Starts e s.deeper p := by
  have ha := accepts_of_evaluate h
  cases e with
  | number | reference => simp [Equation.parts] at hp
  | block child =>
    obtain rfl : p = child := by simpa [Equation.parts] using hp
    exact .block
  | signed operator operand =>
    obtain rfl : p = operand := by simpa [Equation.parts] using hp
    exact .signed ha
  | binary operator left right =>
    obtain rfl | rfl : p = left ∨ p = right := by simpa [Equation.parts] using hp
    · exact .left ha
    · exact .right ha
  | call name arguments =>
    obtain ⟨f, hf⟩ := ha
    have hsum : f ≠ .builtin .sum := by
      rintro rfl
      exact hsum name arguments rfl hf
    exact .argument hf (isStrict_of_function? hs hf hsum) hp
  | matrix rows =>
    obtain ⟨row, hr, hp⟩ := List.mem_flatten.1 hp
    exact .cell hr hp
  | comparison | missingOperand | missingOperator | missingSign | missingFunction | unreadable =>
    exact ha.elim

/-- What a sum with a value looks like. -/
theorem sum_of_evaluate {name : String} {arguments : List Equation}
    (hf : s.function? name = some (.builtin .sum))
    (h : s.evaluate (.call name arguments) = .ok v) :
    ∃ index first last term m n, arguments = [.reference index, first, last, term] ∧
      s.deeper.bound? first = some m ∧ s.deeper.bound? last = some n := by
  obtain ⟨-, h⟩ := evaluate_eq_ok.1 h
  rw [evaluateNode_call hf] at h
  obtain ⟨index, first, last, term, m, n, ha, hm, hn, -⟩ := run_sum_eq_ok.1 h
  exact ⟨index, first, last, term, m, n, ha, hm, hn⟩

/-- Every part of a tree with a value is evaluated in some scope with the same functions, but for
the variable of a sum. -/
theorem exists_starts_of_part (hs : s.Unhosted) (h : s.evaluate e = .ok v) (hp : p ∈ e.parts) :
    (∃ name, p = .reference name) ∨ ∃ t, t.functions = s.functions ∧ s.Starts e t p := by
  by_cases hsum : ∃ name arguments, e = .call name arguments ∧
      s.function? name = some (.builtin .sum)
  · obtain ⟨name, arguments, rfl, hf⟩ := hsum
    obtain ⟨index, first, last, term, m, n, rfl, hm, hn⟩ := sum_of_evaluate hf h
    simp only [Equation.parts, List.mem_cons, List.not_mem_nil, or_false] at hp
    rcases hp with rfl | rfl | rfl | rfl
    · exact .inl ⟨index, rfl⟩
    · exact .inr ⟨s.deeper, rfl, .first hf⟩
    · exact .inr ⟨s.deeper, rfl, .last hf⟩
    · have hle : min m n ≤ max m n := by omega
      exact .inr ⟨s.deeper.atIndex index (min m n), rfl, .term hf hm hn (Int.le_refl _) hle⟩
  · refine .inr ⟨s.deeper, rfl, starts_of_part hs h hp ?_⟩
    intro name arguments he hf
    exact hsum ⟨name, arguments, he, hf⟩

theorem accepts_of_within (hs : s.Unhosted) (h : s.evaluate e = .ok v) (hp : p.Within e) :
    s.Accepts p := by
  induction s, e using starts_induction generalizing v with
  | step s e ih =>
    rcases hp.cases_head with rfl | ⟨q, hq, hp⟩
    · exact accepts_of_evaluate h
    · rcases exists_starts_of_part hs h hq with ⟨name, rfl⟩ | ⟨t, ht, hst⟩
      · rcases hp.cases_head with rfl | ⟨r, hr, -⟩
        · trivial
        · simp [Equation.parts] at hr
      · obtain ⟨w, hw⟩ := hst.exists_ok h
        exact (ih t q hst (hs.congr ht) hw hp).congr ht

theorem exists_ok_of_starts (hs : s.Unhosted) (h : s.evaluate e = .ok v)
    (hp : s.Starts e s.deeper p) : ∃ w, s.evaluate p = .ok w := by
  obtain ⟨w, hw⟩ := hp.exists_ok h
  exact ⟨w, s.deeper_roomier.evaluate_eq_ok (hs.congr rfl) hw⟩

theorem exists_ok_of_exposed (hs : s.Unhosted) (h : s.evaluate e = .ok v) (hp : s.Exposed e p) :
    ∃ w, s.evaluate p = .ok w := by
  induction hp with
  | refl => exact ⟨v, h⟩
  | part _ hq hsum ih =>
    obtain ⟨w, hw⟩ := ih
    exact exists_ok_of_starts hs hw (starts_of_part hs hw hq hsum)
  | @argument name arguments place q _ hq hfirst hterm ih =>
    obtain ⟨w, hw⟩ := ih
    by_cases hf : s.function? name = some (.builtin .sum)
    · obtain ⟨index, first, last, term, m, n, rfl, -, -⟩ := sum_of_evaluate hf hw
      obtain rfl | rfl | hge : place = 1 ∨ place = 2 ∨ 4 ≤ place := by omega
      · obtain rfl : first = q := Option.some.inj hq
        exact exists_ok_of_starts hs hw (.first hf)
      · obtain rfl : last = q := Option.some.inj hq
        exact exists_ok_of_starts hs hw (.last hf)
      · rw [List.getElem?_eq_none (by simpa using hge)] at hq
        cases hq
    · refine exists_ok_of_starts hs hw (starts_of_part hs hw (List.mem_of_getElem? hq) ?_)
      intro other arguments' he
      obtain ⟨rfl, -⟩ := Equation.call.inj he
      exact hf

theorem bound?_of_deeper (hs : s.Unhosted) {n : Int} (h : s.deeper.bound? e = some n) :
    s.bound? e = some n := by
  obtain ⟨w, hw, hb⟩ := bound?_eq_some.1 h
  exact bound?_eq_some.2 ⟨w, s.deeper_roomier.evaluate_eq_ok (hs.congr rfl) hw, hb⟩

/-- The term of a sum with a value has values over the whole range. -/
theorem exists_ok_of_term {name : String} {arguments : List Equation} (hs : s.Unhosted)
    (hf : s.function? name = some (.builtin .sum))
    (h : s.evaluate (.call name arguments) = .ok v) :
    ∃ index first last term m n, arguments = [.reference index, first, last, term] ∧
      s.bound? first = some m ∧ s.bound? last = some n ∧
      ∀ i, min m n ≤ i → i ≤ max m n → ∃ w, (s.atIndex index i).evaluate term = .ok w := by
  obtain ⟨index, first, last, term, m, n, rfl, hm, hn⟩ := sum_of_evaluate hf h
  refine ⟨index, first, last, term, m, n, rfl, bound?_of_deeper hs hm, bound?_of_deeper hs hn, ?_⟩
  intro i hl hu
  obtain ⟨w, hw⟩ := (Starts.term hf hm hn hl hu).exists_ok h
  exact ⟨w, (s.deeper_roomier.atIndex index i).evaluate_eq_ok (hs.congr rfl) hw⟩

/-- A tree with a value is complete at every depth and its functions are bound. All that stands in
it outside the first and fourth arguments of sums has a value in the same scope, and the fourth
argument of such a sum has one for every integer of the range. -/
theorem evaluation_strict (s : Scope) (e : Equation) (v : Value) (hs : s.Unhosted)
    (h : s.evaluate e = .ok v) :
    (∀ p, p.Within e → s.Accepts p) ∧
      (∀ p, s.Exposed e p → ∃ w, s.evaluate p = .ok w) ∧
      ∀ name arguments, s.Exposed e (.call name arguments) →
        s.function? name = some (.builtin .sum) →
        ∃ index first last term m n, arguments = [.reference index, first, last, term] ∧
          s.bound? first = some m ∧ s.bound? last = some n ∧
          ∀ i, min m n ≤ i → i ≤ max m n →
            ∃ w, (s.bindValue index (.number (Float.ofInt i))).evaluate term = .ok w := by
  refine ⟨?_, ?_, ?_⟩
  · intro p hp
    exact accepts_of_within hs h hp
  · intro p hp
    exact exists_ok_of_exposed hs h hp
  · intro name arguments hp hf
    obtain ⟨w, hw⟩ := exists_ok_of_exposed hs h hp
    exact exists_ok_of_term hs hf hw

theorem evaluation_strict_sample :
    (∀ p, p.Within sampleSum → sample.Accepts p) ∧
      ∀ p, sample.Exposed sampleSum p → ∃ w, sample.evaluate p = .ok w := by
  have h := evaluation_strict sample sampleSum _ (sample_builtFrom trivial) evaluate_sampleSum
  exact ⟨h.1, h.2.1⟩

end QuantityCalculus.Scope
