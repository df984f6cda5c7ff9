import QuantityCalculus.Proofs.Builtin.LikeTerms
import QuantityCalculus.Proofs.Evaluation.Correspondence
import QuantityCalculus.Proofs.Evaluation.Invariance

/-!
Sums as folds. The terms are evaluated independently of each other, each in the scope of the caller
with the index bound anew, and are added up from the least integer on. There is a sum exactly when
all terms have values and any two of these can be added.
-/
namespace QuantityCalculus.Scope

variable {s t : Scope} {name index : String} {arguments others : List Equation}
  {e p first last term : Equation} {low middle high m n : Int} {v : Value}

theorem sumOf_self (s : Scope) (name : String) (arguments : List Equation) (index : String)
    (term : Equation) (i : Int) :
    s.sumOf name arguments index term i i = (s.atIndex index i).evaluate term :=
  Series.between_self (s.callOf name arguments) index (s.argument term) i

theorem sumOf_eq_foldlM (hl : low ≤ middle) (hu : middle ≤ high) :
    s.sumOf name arguments index term low high = (do
      let total ← s.sumOf name arguments index term low middle
      (Int.range (middle + 1) (high + 1)).foldlM
        (Series.addTerm (.call name arguments) fun i => (s.atIndex index i).evaluate term) total) :=
  Series.between_eq_foldlM hl hu

/-- The arguments of the call are part of its node, which counts for the blame only. -/
theorem sumOf_eq_ok_congr : s.sumOf name arguments index term low high = .ok v ↔
    s.sumOf name others index term low high = .ok v := by
  have hmoves := moves_of_kind (fun _ => ()) (.call name arguments) (.call name others)
  have hterms (i : Int) : ((s.atIndex index i).evaluate term).Akin (fun _ => ())
      ((s.atIndex index i).evaluate term) := .refl _
  exact (sumOf_parallel hmoves (fun i => Outcome.akin_iff_parallel.1 (hterms i)) low high).eq_ok_iff

section Call

variable (hf : s.function? name = some (.builtin .sum)) (hm : s.deeper.bound? first = some m)
  (hn : s.deeper.bound? last = some n)

include hf hm hn

theorem evaluate_sum : s.evaluate (.call name [.reference index, first, last, term]) =
    s.deeper.sumOf name [.reference index, first, last, term] index term (min m n) (max m n) := by
  have hroom : s.deeper.HasRoom := by
    obtain ⟨w, hw, -⟩ := bound?_eq_some.1 hm
    exact (evaluate_eq_ok.1 hw).1
  rw [hroom.of_deeper.evaluate_eq, evaluateNode_call hf, run_sum]
  change (do
    let m ← Series.bound _ 1 .seriesStart (s.deeper.argument first)
    let n ← Series.bound _ 2 .seriesEnd (s.deeper.argument last)
    Series.between _ index (s.deeper.argument term) (min m n) (max m n)) = _
  rw [bound_callOf.2 hm, bound_callOf.2 hn]
  rfl

/-- Only the term is evaluated with the index bound to another value. -/
theorem starts_sum_iff : s.Starts (.call name [.reference index, first, last, term]) t p ↔
    t = s.deeper ∧ (p = first ∨ p = last) ∨
      ∃ i, min m n ≤ i ∧ i ≤ max m n ∧ t = s.deeper.atIndex index i ∧ p = term := by
  constructor
  · intro hs
    cases hs with
    | argument hf' hstrict =>
      obtain rfl := Option.some.inj (hf.symm.trans hf')
      exact absurd rfl hstrict
    | first => exact .inl ⟨rfl, .inl rfl⟩
    | last => exact .inl ⟨rfl, .inr rfl⟩
    | @term _ _ _ _ _ m' n' i _ hm' hn' hl hu =>
      obtain rfl : m = m' := Option.some.inj (hm.symm.trans hm')
      obtain rfl : n = n' := Option.some.inj (hn.symm.trans hn')
      exact .inr ⟨i, hl, hu, rfl, rfl⟩
    | body hf' => cases hf.symm.trans hf'
  · rintro (⟨rfl, rfl | rfl⟩ | ⟨i, hl, hu, rfl, rfl⟩)
    · exact .first hf
    · exact .last hf
    · exact .term hf hm hn hl hu

end Call

/-- Every part of a tree is evaluated under the variables of the tree, but for the term of a sum;
and the body of a defined function is evaluated under those of its definition. -/
theorem Starts.values_eq (hs : s.Starts e t p) : t.values = s.values ∨
    (∃ name index first last i, e = .call name [.reference index, first, last, p] ∧
      s.function? name = some (.builtin .sum) ∧ t = s.deeper.atIndex index i) ∨
    ∃ name arguments parameters captured, e = .call name arguments ∧
      s.function? name = some (.defined parameters p captured) := by
  cases hs with
  | @term name index first last _ _ _ i hf =>
    exact .inr (.inl ⟨name, index, first, last, i, rfl, hf, rfl⟩)
  | @body name parameters _ captured arguments _ hf =>
    exact .inr (.inr ⟨name, arguments, parameters, captured, rfl, hf⟩)
  | _ => exact .inl rfl

theorem value?_atIndex (s : Scope) (index : String) (i : Int) (other : String) :
    (s.atIndex index i).value? other =
      if other = index then some (.number (Float.ofInt i)) else s.value? other := by
  simp only [atIndex, bindValue, value?, Bindings.find?_insert, eq_comm]

/-- A sum is the fold of its terms from the least integer on: the first term is not added to
anything, and every other is evaluated when the earlier ones have been added up. The bounds may
change places, and a longer sum goes on from the value of a shorter one. A term sees the index
bound to its own integer and is otherwise in the scope of the caller; apart from that, and from the
bodies of defined functions, a tree is evaluated under one and the same variables. -/
theorem sum_folds (s : Scope) (name index : String) (first last term : Equation)
    (hf : s.function? name = some (.builtin .sum)) (hm : s.deeper.bound? first = some m)
    (hn : s.deeper.bound? last = some n) :
    let site : Equation := .call name [.reference index, first, last, term]
    let low := min m n
    let high := max m n
    let step := Series.addTerm site fun i => (s.deeper.atIndex index i).evaluate term
    s.evaluate site = (do
        let total ← (s.deeper.atIndex index low).evaluate term
        (Int.range (low + 1) (high + 1)).foldlM step total) ∧
      1 + ((Int.range (low + 1) (high + 1)).length : Int) = high - low + 1 ∧
      (∀ v, s.evaluate site = .ok v ↔
        s.evaluate (.call name [.reference index, last, first, term]) = .ok v) ∧
      (∀ (first' last' : Equation) (m' n' : Int), s.deeper.bound? first' = some m' →
        s.deeper.bound? last' = some n' → min m' n' = low → max m' n' ≤ high → ∀ v,
        s.evaluate site = .ok v ↔ ∃ total,
          s.evaluate (.call name [.reference index, first', last', term]) = .ok total ∧
          (Int.range (max m' n' + 1) (high + 1)).foldlM step total = .ok v) ∧
      (∀ i other, (s.deeper.atIndex index i).value? other =
        if other = index then some (.number (Float.ofInt i)) else s.value? other) ∧
      (∀ t p, s.Starts site t p ↔ t = s.deeper ∧ (p = first ∨ p = last) ∨
        ∃ i, low ≤ i ∧ i ≤ high ∧ t = s.deeper.atIndex index i ∧ p = term) ∧
      ∀ e t p, s.Starts e t p → t.values = s.values ∨
        (∃ name index first last i, e = .call name [.reference index, first, last, p] ∧
          s.function? name = some (.builtin .sum) ∧ t = s.deeper.atIndex index i) ∨
        ∃ name arguments parameters captured, e = .call name arguments ∧
          s.function? name = some (.defined parameters p captured) := by
  intro site low high step
  have hsum : s.evaluate site = s.deeper.sumOf name _ index term low high := evaluate_sum hf hm hn
  have hle : low ≤ high := min_le_max
  refine ⟨?_, ?_, ?_, ?_, ?_, ?_, ?_⟩
  · rw [hsum, sumOf_eq_foldlM (le_refl low) hle, sumOf_self]
  · simp only [Int.range, List.length_map, List.length_range]
    omega
  · intro v
    rw [hsum, evaluate_sum hf hn hm, min_comm n m, max_comm n m]
    exact sumOf_eq_ok_congr
  · intro first' last' m' n' hm' hn' hlow hhigh v
    have hmiddle : low ≤ max m' n' := hlow ▸ min_le_max
    rw [hsum, sumOf_eq_foldlM hmiddle hhigh, Outcome.bind_eq_ok, evaluate_sum hf hm' hn', hlow]
    exact exists_congr fun total => and_congr_left fun _ => sumOf_eq_ok_congr
  · exact s.deeper.value?_atIndex index
  · intro t p
    exact starts_sum_iff hf hm hn
  · intro e t p
    exact Starts.values_eq

/-- The index of a sum within a sum of the same index: the outer one counts again in the bounds of
the inner one. -/
theorem sum_folds_sample : ∃ total,
    let inner : Equation := .call "sum"
      [.reference "i", .number 1.0, .reference "i", .reference "i"]
    sample.evaluate (.call "sum" [.reference "i", .number 1.0, .number 3.0, inner]) =
        .ok (.number 10.0) ∧
      sample.evaluate (.call "sum" [.reference "i", .number 3.0, .number 1.0, inner]) =
        .ok (.number 10.0) ∧
      sample.evaluate (.call "sum" [.reference "i", .number 2.0, .number 1.0, inner]) = .ok total ∧
      (Int.range 3 4).foldlM
        (Series.addTerm (.call "sum" [.reference "i", .number 1.0, .number 3.0, inner])
          fun i => (sample.deeper.atIndex "i" i).evaluate inner) total = .ok (.number 10.0) := by
  let inner : Equation := .call "sum" [.reference "i", .number 1.0, .reference "i", .reference "i"]
  obtain ⟨-, -, hexchange, hresume, -⟩ :=
    sum_folds sample "sum" "i" (.number 1.0) (.number 3.0) inner (m := 1) (n := 3) rfl rfl rfl
  have hsum : sample.evaluate (.call "sum" [.reference "i", .number 1.0, .number 3.0, inner]) =
      .ok (.number 10.0) := rfl
  obtain ⟨total, htotal, hrest⟩ :=
    (hresume (.number 2.0) (.number 1.0) 2 1 rfl rfl rfl (by decide) _).1 hsum
  exact ⟨total, hsum, (hexchange _).1 hsum, htotal, hrest⟩

/-- A sum exists exactly when its terms do and are in one unit, the matrices among them of one
shape. It is then in that unit, and a matrix of that shape if any term is a matrix. If the terms
exist but are unlike, the sum itself is blamed for their units or their shapes. -/
theorem sum_of_like_terms (s : Scope) (name index : String) (first last term : Equation)
    (h : s.BuiltFrom (fun _ => True) fun v => v.units.Proper)
    (hf : s.function? name = some (.builtin .sum)) (hm : s.deeper.bound? first = some m)
    (hn : s.deeper.bound? last = some n) :
    let site : Equation := .call name [.reference index, first, last, term]
    let t : Int → Outcome Value := fun i => (s.deeper.atIndex index i).evaluate term
    let counted : Int → Prop := fun i => min m n ≤ i ∧ i ≤ max m n
    ((∃ v, s.evaluate site = .ok v) ↔
        (∀ i, counted i → ∃ a, t i = .ok a) ∧ Series.LikeTerms t (min m n) (max m n)) ∧
      (∀ v, s.evaluate site = .ok v →
        (∀ a, t (min m n) = .ok a → v.units = a.units) ∧
        (∀ i, counted i → ∀ a, t i = .ok a → v.units.sameUnit a.units = true) ∧
        ∀ shape, v.quantity.shape? = some shape ↔
          ∃ i, counted i ∧ ∃ a, t i = .ok a ∧ a.quantity.shape? = some shape) ∧
      ((∀ i, counted i → ∃ a, t i = .ok a) → ¬ Series.LikeTerms t (min m n) (max m n) →
        ∃ cause, s.evaluate site = .error (.fault ⟨cause, site⟩) ∧
          ((∃ u w, cause = .unlikeUnits u w) ∨ ∃ p q, cause = .unlikeShapes p q)) := by
  intro site t counted
  have hsum : s.evaluate site = s.deeper.sumOf name _ index term (min m n) (max m n) :=
    evaluate_sum hf hm hn
  have hle : min m n ≤ max m n := min_le_max
  have hproper (i : Int) (a : Value) (ha : t i = .ok a) : a.units.Proper := by
    have hclosed := Value.closed_units CompoundUnit.closed_proper
    have hd : s.deeper.BuiltFrom (fun _ => True) fun v => v.units.Proper := h.congr rfl rfl
    exact good_of_evaluate hclosed (hd.bindValue index (hclosed.number _)) ha
  have hlike (v : Value) (hv : s.evaluate site = .ok v) :
      Series.LikeTerms t (min m n) (max m n) :=
    Series.likeTerms_of_between (hsum.symm.trans hv) (hproper (min m n))
  refine ⟨⟨?_, ?_⟩, ?_, ?_⟩
  · rintro ⟨v, hv⟩
    exact ⟨fun i hi => Series.exists_termAt_of_between (hsum.symm.trans hv) hi.1 hi.2, hlike v hv⟩
  · rintro ⟨hterms, hall⟩
    cases hv : s.evaluate site with
    | ok v => exact ⟨v, rfl⟩
    | error stop =>
      obtain ⟨hunlike, -⟩ :=
        Series.between_eq_error_of_terms hle (hsum.symm.trans hv) hterms
      exact absurd hall hunlike
  · intro v hv
    have hfirst (a : Value) (ha : t (min m n) = .ok a) : v.units = a.units :=
      Series.units_of_between hle (hsum.symm.trans hv) ha
    refine ⟨hfirst, ?_, fun shape => Series.shape?_of_between hle (hsum.symm.trans hv)⟩
    intro i hi a ha
    have hlow : counted (min m n) := ⟨le_refl _, hle⟩
    obtain ⟨c, hc⟩ := Series.exists_termAt_of_between (hsum.symm.trans hv) hlow.1 hlow.2
    rw [hfirst c hc]
    exact (hlike v hv (min m n) i hlow hi c a hc ha).units
  · intro hterms hunlike
    cases hv : s.evaluate site with
    | ok v => exact absurd (hlike v hv) hunlike
    | error stop =>
      obtain ⟨-, cause, hcause, rfl⟩ :=
        Series.between_eq_error_of_terms hle (hsum.symm.trans hv) hterms
      exact ⟨cause, rfl, hcause⟩

/-- Multiples of an area are added up, its first and its second root are not. -/
theorem sum_of_like_terms_sample :
    let area : Equation := .reference "area"
    let index : Equation := .reference "i"
    let multiples : Equation :=
      .call "sum" [index, .number 1.0, .number 2.0, .binary .dot area index]
    let roots : Equation :=
      .call "sum" [index, .number 1.0, .number 2.0, .call "root" [index, area]]
    (∃ v, rootSample.evaluate multiples = .ok v ∧ v.units = ⟨[("m", .ofInt 2)]⟩) ∧
      ∃ cause, rootSample.evaluate roots = .error (.fault ⟨cause, roots⟩) ∧
        ((∃ u w, cause = .unlikeUnits u w) ∨ ∃ p q, cause = .unlikeShapes p q) := by
  intro area index multiples roots
  have hscope : rootSample.BuiltFrom (fun _ => True) fun v => v.units.Proper :=
    rootSample_builtFrom (by decide)
  constructor
  · obtain ⟨-, hvalue, -⟩ := sum_of_like_terms rootSample "sum" "i" (.number 1.0) (.number 2.0)
      (.binary .dot area index) (m := 1) (n := 2) hscope rfl rfl rfl
    exact ⟨.measured ⟨[("m", .ofInt 2)]⟩ (.number 27.0), rfl, (hvalue _ rfl).1 _ rfl⟩
  · obtain ⟨-, -, hfault⟩ := sum_of_like_terms rootSample "sum" "i" (.number 1.0) (.number 2.0)
      (.call "root" [index, area]) (m := 1) (n := 2) hscope rfl rfl rfl
    apply hfault
    · rintro i ⟨hl, hu⟩
      obtain rfl | rfl : i = 1 ∨ i = 2 := by omega
      · exact ⟨_, rfl⟩
      · exact ⟨_, rfl⟩
    · intro hlike
      have hsame := (hlike 1 2 (by decide) (by decide) _ _ rfl rfl).units
      exact absurd hsame (by decide)

end QuantityCalculus.Scope
