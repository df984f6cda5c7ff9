import QuantityCalculus.Proofs.Evaluation.Order

/-!
Where a stop comes from. An evaluation that stops has come to one that stops in the same way, or it
raises the stop itself; so there is an evaluation to blame at the end of a chain of them.
-/
namespace QuantityCalculus

/-- A place at which the tree is unfinished. -/
def Equation.IsGap : Equation → Prop
  | .missingOperand | .missingOperator _ _ | .missingSign _ | .missingFunction _ => True
  | _ => False

/-- A stop raised at a node, all the evaluations that it has started having found values. -/
inductive Scope.Raises (s : Scope) : Equation → Stop → Prop where
  | depth {e : Equation} {n : Nat} (hl : s.limit = some n) (hn : n < s.depth + 1) :
      Raises s e (.fault ⟨.depth n, e⟩)
  | unbound {name : String} (h : s.value? name = none) :
      Raises s (.reference name) (.fault ⟨.unknownVariable name, .reference name⟩)
  | sign {operand : Equation} :
      Raises s (.signed .plusMinus operand) (.fault ⟨.plusMinus, .signed .plusMinus operand⟩)
  | plusMinus {left right : Equation} :
      Raises s (.binary .plusMinus left right) (.fault ⟨.plusMinus, .binary .plusMinus left right⟩)
  | operator {operator : BinaryOperator} {left right : Equation} {a b : Value} {stop : Stop}
      (ho : operator ≠ .plusMinus) (ha : s.deeper.evaluate left = .ok a)
      (hb : s.deeper.evaluate right = .ok b)
      (h : Arithmetic.apply operator (.binary operator left right) a b = .error stop) :
      Raises s (.binary operator left right) stop
  | comparison {relation : Relation} {left right : Equation} :
      Raises s (.comparison relation left right)
        (.fault ⟨.comparison relation, .comparison relation left right⟩)
  | gap {e : Equation} (h : e.IsGap) : Raises s e (.fault ⟨.incomplete, e⟩)
  | unreadable {token : Unreadable} :
      Raises s (.unreadable token) (.fault ⟨.unreadable token, .unreadable token⟩)
  | cellUnits {rows : List (List Equation)} {before after : List Equation} {tree : Equation}
      {unit : Option CompoundUnit} {xs : List Float} {v : Value}
      (hc : rows.flatten = before ++ tree :: after)
      (hb : s.deeper.cellsOf before = .ok (unit, xs)) (hv : s.deeper.evaluate tree = .ok v)
      (h : (unit.getD v.units).sameUnit v.units = false) :
      Raises s (.matrix rows) (.fault ⟨.cellUnits (unit.getD v.units) v.units, tree⟩)
  | nested {rows : List (List Equation)} {before after : List Equation} {tree : Equation}
      {unit : Option CompoundUnit} {xs : List Float} {v : Value}
      (hc : rows.flatten = before ++ tree :: after)
      (hb : s.deeper.cellsOf before = .ok (unit, xs)) (hv : s.deeper.evaluate tree = .ok v)
      (h : v.quantity.kind = .matrix) : Raises s (.matrix rows) (.fault ⟨.nestedMatrix, tree⟩)
  | malformed {rows : List (List Equation)} {cells : List (List Float)}
      (hc : List.Forall₂ (List.Forall₂ fun tree x => ∃ v, s.deeper.evaluate tree = .ok v ∧
        v.quantity = .number x) rows cells) (h : Matrix.ofRows? cells = none) :
      Raises s (.matrix rows) (.fault ⟨.malformedMatrix, .matrix rows⟩)
  | function {name : String} {arguments : List Equation} (h : s.function? name = none) :
      Raises s (.call name arguments) (.fault ⟨.unknownFunction name, .call name arguments⟩)
  | hosted {name : String} {arguments : List Equation} {run : Call → Outcome Value} {stop : Stop}
      (hf : s.function? name = some (.hosted run))
      (h : run (s.deeper.callOf name arguments) = .error stop) :
      Raises s (.call name arguments) stop
  | count {name : String} {arguments : List Equation} {f : Callable} {arity : Arity}
      (hf : s.function? name = some f) (ha : f.arity? = some arity)
      (h : arity.admits arguments.length = false) :
      Raises s (.call name arguments)
        (.fault ⟨.argumentCount name arity arguments.length, .call name arguments⟩)
  | notNumber {name : String} {before after : List Equation} {f : Callable} {tree : Equation}
      {v : Value} (hf : s.function? name = some f) (hs : f.IsStrict)
      (hb : ∀ a ∈ before, ∃ w, s.deeper.evaluate a = .ok w)
      (hv : s.deeper.evaluate tree = .ok v) (h : v.number? = none) :
      Raises s (.call name (before ++ tree :: after)) (.fault ⟨.numbersOnly name, tree⟩)
  | violation {name : String} {arguments : List Equation} {f : NumericFunction} {xs : List Float}
      {violation : Violation} (hf : s.function? name = some (.numeric f))
      (hx : (s.deeper.callOf name arguments).numbers = .ok xs)
      (h : f.check name xs = some violation) :
      Raises s (.call name arguments) (.fault ⟨violation.cause,
        arguments[violation.index]?.getD (.call name arguments)⟩)
  | squareRoot {name : String} {radicand : Equation} {v : Value} {stop : Stop}
      (hf : s.function? name = some (.builtin .sqrt)) (hv : s.deeper.evaluate radicand = .ok v)
      (h : Radical.squareRootOf (s.deeper.callOf name [radicand]) v = .error stop) :
      Raises s (.call name [radicand]) stop
  | root {name : String} {index radicand : Equation} {k : Float} {v : Value} {stop : Stop}
      (hf : s.function? name = some (.builtin .root))
      (hk : s.deeper.evaluate index = .ok (.number k)) (hv : s.deeper.evaluate radicand = .ok v)
      (h : Radical.rootOf (s.deeper.callOf name [index, radicand]) k v = .error stop) :
      Raises s (.call name [index, radicand]) stop
  | seriesVariable {name : String} {head first last term : Equation}
      (hf : s.function? name = some (.builtin .sum)) (h : ∀ index, head ≠ .reference index) :
      Raises s (.call name [head, first, last, term])
        (.fault ⟨.seriesVariable name head.rootName, head⟩)
  | seriesStart {name index : String} {first last term : Equation} {v : Value}
      (hf : s.function? name = some (.builtin .sum)) (hv : s.deeper.evaluate first = .ok v)
      (h : Series.bound? v = none) :
      Raises s (.call name [.reference index, first, last, term])
        (.fault ⟨.seriesStart name, first⟩)
  | seriesEnd {name index : String} {first last term : Equation} {m : Int} {v : Value}
      (hf : s.function? name = some (.builtin .sum)) (hm : s.deeper.bound? first = some m)
      (hv : s.deeper.evaluate last = .ok v) (h : Series.bound? v = none) :
      Raises s (.call name [.reference index, first, last, term])
        (.fault ⟨.seriesEnd name, last⟩)
  | addition {name index : String} {first last term : Equation} {m n i : Int} {total t : Value}
      {stop : Stop} (hf : s.function? name = some (.builtin .sum))
      (hm : s.deeper.bound? first = some m) (hn : s.deeper.bound? last = some n)
      (hl : min m n ≤ i) (hu : i ≤ max m n)
      (htotal : s.deeper.sumOf name [.reference index, first, last, term] index term (min m n)
        (i - 1) = .ok total)
      (ht : (s.deeper.atIndex index i).evaluate term = .ok t)
      (h : Arithmetic.plus (.call name [.reference index, first, last, term]) total t =
        .error stop) :
      Raises s (.call name [.reference index, first, last, term]) stop

namespace Scope

variable {s t : Scope} {e p : Equation} {stop : Stop}

/-- The evaluation has come to another that stops in the same way, or raises the stop itself. -/
def Stops (s : Scope) (e : Equation) (stop : Stop) : Prop :=
  (∃ t p, s.ComesTo e t p ∧ t.evaluate p = .error stop) ∨ s.Raises e stop

section Calls

variable {name : String} {arguments : List Equation} {f : Callable}

theorem stops_of_wrongCount {arity : Arity} (hf : s.function? name = some f)
    (ha : f.arity? = some arity) (h : WrongCount name arguments arity stop) :
    s.Stops (.call name arguments) stop := by
  obtain ⟨hl, rfl⟩ := h
  exact .inr (.count hf ha hl)

theorem stops_of_numbers {arity : Arity} (hf : s.function? name = some f) (hs : f.IsStrict)
    (htakes : ∀ x, f.Takes (.number x)) (ha : f.arity? = some arity)
    (hn : arity.admits arguments.length = true)
    (h : (s.deeper.callOf name arguments).numbers = .error stop) :
    s.Stops (.call name arguments) stop := by
  obtain ⟨before, tree, after, rfl, hb, h⟩ := numbers_callOf_eq_error.1 h
  rcases h with h | ⟨v, hv, hk, rfl⟩
  · refine .inl ⟨_, _, .argument hf hs ha hn ?_, h⟩
    intro a hm
    obtain ⟨x, hx⟩ := hb a hm
    exact ⟨_, hx, htakes x⟩
  · refine .inr (.notNumber hf hs ?_ hv hk)
    intro a hm
    obtain ⟨x, hx⟩ := hb a hm
    exact ⟨_, hx⟩

theorem stops_of_sumOf {index : String} {first last term : Equation} {m n : Int}
    (hf : s.function? name = some (.builtin .sum)) (hm : s.deeper.bound? first = some m)
    (hn : s.deeper.bound? last = some n)
    (h : s.deeper.sumOf name [.reference index, first, last, term] index term (min m n)
      (max m n) = .error stop) :
    s.Stops (.call name [.reference index, first, last, term]) stop := by
  obtain ⟨i, hl, hu, ⟨rfl, h⟩ | ⟨hlt, total, htotal, h⟩⟩ := Series.between_eq_error (by omega) h
  · exact .inl ⟨_, _, .term hf hm hn hl hu fun hlt => absurd hlt (Int.lt_irrefl _), h⟩
  · rcases h with h | ⟨t, ht, h⟩
    · exact .inl ⟨_, _, .term hf hm hn hl hu fun _ => ⟨total, htotal⟩, h⟩
    · exact .inr (.addition hf hm hn hl hu htotal ht h)

theorem stops_of_sum (hf : s.function? name = some (.builtin .sum))
    (h : (Callable.builtin .sum).run (s.deeper.callOf name arguments) = .error stop) :
    s.Stops (.call name arguments) stop := by
  rcases run_sum_eq_error h with h | ⟨head, first, last, term, rfl, h⟩
  · exact stops_of_wrongCount hf rfl h
  · rcases h with ⟨hv, rfl⟩ | ⟨index, rfl, h⟩
    · exact .inr (.seriesVariable hf hv)
    · rcases h with (h | ⟨v, hv, hb, rfl⟩) | ⟨m, hm, h⟩
      · exact .inl ⟨_, _, .first hf, h⟩
      · exact .inr (.seriesStart hf hv hb)
      · rcases h with (h | ⟨v, hv, hb, rfl⟩) | ⟨n, hn, h⟩
        · exact .inl ⟨_, _, .last hf hm, h⟩
        · exact .inr (.seriesEnd hf hm hv hb)
        · exact stops_of_sumOf hf hm hn h

theorem stops_of_builtin {b : Builtin} (hf : s.function? name = some (.builtin b))
    (h : (Callable.builtin b).run (s.deeper.callOf name arguments) = .error stop) :
    s.Stops (.call name arguments) stop := by
  rcases b.rule_cases with ⟨apply, hr, total⟩ | rfl | rfl | rfl
  · have hs : (Callable.builtin b).IsStrict := by
      rintro rfl
      cases hr
    rcases run_rule_eq_error hr total h with h | ⟨hn, h⟩
    · exact stops_of_wrongCount hf rfl h
    · exact stops_of_numbers hf hs (fun x => ⟨x, rfl⟩) rfl hn h
  · have hs : (Callable.builtin .sqrt).IsStrict := by simp [Callable.IsStrict]
    rcases run_sqrt_eq_error h with h | ⟨radicand, rfl, h | ⟨v, hv, h⟩⟩
    · exact stops_of_wrongCount hf rfl h
    · have hc : s.ComesTo (.call name ([] ++ radicand :: [])) s.deeper radicand :=
        .argument hf hs rfl rfl (by simp)
      exact .inl ⟨_, _, hc, h⟩
    · exact .inr (.squareRoot hf hv h)
  · have hs : (Callable.builtin .root).IsStrict := by simp [Callable.IsStrict]
    rcases run_root_eq_error h with h | ⟨index, radicand, rfl, h⟩
    · exact stops_of_wrongCount hf rfl h
    · rcases h with h | ⟨i, hi, hn, rfl⟩ | ⟨k, hk, h | ⟨v, hv, h⟩⟩
      · have hc : s.ComesTo (.call name ([] ++ index :: [radicand])) s.deeper index :=
          .argument hf hs rfl rfl (by simp)
        exact .inl ⟨_, _, hc, h⟩
      · have hr : s.Raises (.call name ([] ++ index :: [radicand]))
            (.fault ⟨.numbersOnly name, index⟩) := .notNumber hf hs (by simp) hi hn
        exact .inr hr
      · have hc : s.ComesTo (.call name ([index] ++ radicand :: [])) s.deeper radicand :=
          .argument hf hs rfl rfl (by simpa using ⟨_, hk, k, rfl⟩)
        exact .inl ⟨_, _, hc, h⟩
      · exact .inr (.root hf hk hv h)
  · exact stops_of_sum hf h

theorem stops_of_numeric {f : NumericFunction} (hf : s.function? name = some (.numeric f))
    (h : (Callable.numeric f).run (s.deeper.callOf name arguments) = .error stop) :
    s.Stops (.call name arguments) stop := by
  rcases run_numeric_eq_error.1 h with h | ⟨hn, h | ⟨xs, violation, hx, hc, h⟩⟩
  · exact stops_of_wrongCount hf rfl h
  · exact stops_of_numbers hf trivial (fun x => ⟨x, rfl⟩) rfl hn h
  · have hr := Raises.violation hf hx hc
    rw [blameArgument_callOf, Outcome.blame_eq_error] at h
    exact .inr (h ▸ hr)

theorem stops_of_defined {parameters : List String} {body : Equation} {captured : Scope}
    (hf : s.function? name = some (.defined parameters body captured))
    (h : (Callable.defined parameters body captured).run (s.deeper.callOf name arguments) =
      .error stop) : s.Stops (.call name arguments) stop := by
  rcases run_defined_eq_error.1 h with h | ⟨hl, h | ⟨values, hv, h⟩⟩
  · exact stops_of_wrongCount hf rfl h
  · obtain ⟨before, tree, after, rfl, hb, h⟩ := Outcome.mapM_eq_error.1 h
    refine .inl ⟨_, _, .argument hf trivial rfl (Arity.admits_exactly.2 hl) ?_, h⟩
    intro a hm
    obtain ⟨v, hv⟩ := hb a hm
    exact ⟨v, hv, trivial⟩
  · exact .inl ⟨_, _, .body hf hl hv, h⟩

end Calls

theorem stops_of_matrix {rows : List (List Equation)}
    (h : s.deeper.evaluateNode (.matrix rows) = .error stop) : s.Stops (.matrix rows) stop := by
  rcases MatrixLiteral.value_eq_error.1 h with h | ⟨u, cells, hcells, hm, rfl⟩
  · rw [MatrixLiteral.rows_eq_error, ← List.map_flatten] at h
    obtain ⟨_, _, _, unit, xs, hmap, hb, h⟩ := MatrixLiteral.row_eq_error.1 h
    obtain ⟨before, rest, hc, rfl, hr⟩ := List.map_eq_append_iff.1 hmap
    obtain ⟨tree, after, rfl, rfl, rfl⟩ := List.map_eq_cons_iff.1 hr
    rcases MatrixLiteral.cell_eq_error.1 h with h | ⟨v, hv, h⟩
    · rw [value_argument] at h
      exact .inl ⟨_, _, .cell hc hb, h⟩
    · rw [value_argument] at hv
      rcases h with ⟨hu, rfl⟩ | ⟨-, hk, rfl⟩
      · exact .inr (.cellUnits hc hb hv hu)
      · exact .inr (.nested hc hb hv hk)
  · obtain ⟨hall, -⟩ := MatrixLiteral.rows_eq_ok (P := fun _ => True) hcells (by simp) (by simp)
    refine .inr (.malformed ?_ hm)
    simpa only [List.forall₂_map_left_iff, value_argument] using hall

theorem stops_of_node (h : s.deeper.evaluateNode e = .error stop) : s.Stops e stop := by
  cases e with
  | number x => cases h
  | reference name =>
    cases hn : s.value? name with
    | none =>
      obtain rfl : stop = _ := by simpa [evaluateNode, hn] using h
      exact .inr (.unbound hn)
    | some v => simp [evaluateNode, hn] at h
  | block child => exact .inl ⟨_, _, .block, h⟩
  | signed operator operand =>
    cases operator with
    | positive => exact .inl ⟨_, _, .signed (by simp), h⟩
    | negative => exact .inl ⟨_, _, .signed (by simp), Outcome.map_eq_error.1 h⟩
    | plusMinus =>
      obtain rfl := Outcome.blame_eq_error.1 h
      exact .inr .sign
  | binary operator left right =>
    by_cases ho : operator = .plusMinus
    · subst ho
      obtain rfl := Outcome.blame_eq_error.1 h
      exact .inr .plusMinus
    · rw [evaluateNode, if_neg ho] at h
      rcases Outcome.bind_eq_error.1 h with h | ⟨a, ha, h⟩
      · exact .inl ⟨_, _, .left ho, h⟩
      · rcases Outcome.bind_eq_error.1 h with h | ⟨b, hb, h⟩
        · exact .inl ⟨_, _, .right ho ha, h⟩
        · exact .inr (.operator ho ha hb h)
  | comparison relation left right =>
    obtain rfl := Outcome.blame_eq_error.1 h
    exact .inr .comparison
  | call name arguments =>
    cases hf : s.function? name with
    | none =>
      obtain rfl : stop = _ := by simpa [evaluateNode, hf] using h
      exact .inr (.function hf)
    | some f =>
      rw [evaluateNode_call hf] at h
      cases f with
      | builtin b => exact stops_of_builtin hf h
      | numeric f => exact stops_of_numeric hf h
      | hosted run => exact .inr (.hosted hf h)
      | defined parameters body captured => exact stops_of_defined hf h
  | matrix rows => exact stops_of_matrix h
  | missingOperand | missingOperator | missingSign | missingFunction =>
    obtain rfl := Outcome.blame_eq_error.1 h
    exact .inr (.gap trivial)
  | unreadable token =>
    obtain rfl := Outcome.blame_eq_error.1 h
    exact .inr .unreadable

theorem stops_of_evaluate (h : s.evaluate e = .error stop) : s.Stops e stop := by
  rcases evaluate_eq_error.1 h with ⟨n, hl, hn, rfl⟩ | ⟨-, h⟩
  · exact .inr (.depth hl hn)
  · exact stops_of_node h

/-- At the end of the chain of evaluations that stop in one way stands one that raises the stop. -/
theorem exists_leadsTo (h : s.evaluate e = .error stop) :
    ∃ t p, s.LeadsTo e t p ∧ t.Raises p stop := by
  induction s, e using starts_induction with
  | step s e ih =>
    rcases stops_of_evaluate h with ⟨t, p, hc, h⟩ | h
    · obtain ⟨u, q, hv, hq⟩ := ih t p hc.starts h
      exact ⟨u, q, hv.head hc, hq⟩
    · exact ⟨s, e, .refl, h⟩

theorem exists_raises (h : s.evaluate e = .error stop) :
    ∃ t p, s.Visits e t p ∧ t.Raises p stop := by
  obtain ⟨t, p, hl, hr⟩ := exists_leadsTo h
  exact ⟨t, p, hl.visits, hr⟩

end Scope

end QuantityCalculus
