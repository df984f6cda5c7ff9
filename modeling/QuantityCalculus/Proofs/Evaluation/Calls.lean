import QuantityCalculus.Proofs.Builtin.Arguments
import QuantityCalculus.Proofs.Builtin.Catalogue
import QuantityCalculus.Proofs.Builtin.Refusal
import QuantityCalculus.Proofs.Builtin.Series
import QuantityCalculus.Proofs.Evaluation.Node

/-!
Calls of the functions of a scope taken apart, by the kind of function: what it takes to find a
value, and every way to stop without one.
-/
namespace QuantityCalculus

namespace Scope

/-- The integer that a bound of a sum has for its value. -/
def bound? (s : Scope) (e : Equation) : Option Int :=
  match s.evaluate e with
  | .ok v => Series.bound? v
  | .error _ => none

/-- The scope of the term of a sum. -/
def atIndex (s : Scope) (index : String) (i : Int) : Scope :=
  s.bindValue index (.number (Float.ofInt i))

variable {s : Scope} {name : String} {arguments : List Equation} {v : Value} {stop : Stop}

theorem bound?_eq_some {e : Equation} {n : Int} :
    s.bound? e = some n ↔ ∃ v, s.evaluate e = .ok v ∧ Series.bound? v = some n := by
  unfold bound?
  cases s.evaluate e <;> simp

theorem bound_callOf {place : Nat} {cause : String → Cause} {e : Equation} {n : Int} :
    Series.bound (s.callOf name arguments) place cause (s.argument e) = .ok n ↔
      s.bound? e = some n := by
  simp only [Series.bound_eq_ok, valueOf_callOf, bound?_eq_some]

theorem termAt_callOf (s : Scope) (name : String) (arguments : List Equation) (index : String)
    (term : Equation) (i : Int) :
    Series.termAt (s.callOf name arguments) index (s.argument term) i =
      (s.atIndex index i).evaluate term :=
  rfl

theorem numbers_callOf_eq_ok {xs : List Float} :
    (s.callOf name arguments).numbers = .ok xs ↔
      List.Forall₂ (fun a x => s.evaluate a = .ok (.number x)) arguments xs := by
  rw [Call.numbers_eq_ok, arguments_callOf, List.forall₂_map_left_iff]
  simp only [valueOf_callOf]

theorem numbers_callOf_eq_error :
    (s.callOf name arguments).numbers = .error stop ↔
      ∃ before tree after, arguments = before ++ tree :: after ∧
        (∀ a ∈ before, ∃ x, s.evaluate a = .ok (.number x)) ∧ (s.evaluate tree = .error stop ∨
          ∃ v, s.evaluate tree = .ok v ∧ v.number? = none ∧
            stop = .fault ⟨.numbersOnly name, tree⟩) := by
  rw [Call.numbers_eq_error, arguments_callOf]
  constructor
  · rintro ⟨_, _, _, h, hb, ha⟩
    obtain ⟨before, rest, rfl, rfl, hr⟩ := List.map_eq_append_iff.1 h
    obtain ⟨tree, after, rfl, rfl, rfl⟩ := List.map_eq_cons_iff.1 hr
    exact ⟨before, tree, after, rfl, by simpa using hb, by simpa using ha⟩
  · rintro ⟨before, tree, after, rfl, hb, ha⟩
    exact ⟨_, _, _, List.map_append, by simpa using hb, by simpa using ha⟩

/-- A call with a number of arguments that the function does not take. -/
def WrongCount (name : String) (arguments : List Equation) (arity : Arity) (stop : Stop) : Prop :=
  arity.admits arguments.length = false ∧
    stop = .fault ⟨.argumentCount name arity arguments.length, .call name arguments⟩

theorem checked_eq_ok {α : Type} {arity : Arity} {rest : Outcome α} {a : α} :
    (do (s.callOf name arguments).checkArity arity; rest) = .ok a ↔
      arity.admits arguments.length = true ∧ rest = .ok a := by
  rw [Call.checkArity_bind_eq_ok, arguments_callOf, List.length_map]

theorem checked_eq_error {α : Type} {arity : Arity} {rest : Outcome α} :
    (do (s.callOf name arguments).checkArity arity; rest) = .error stop ↔
      WrongCount name arguments arity stop ∨
        (arity.admits arguments.length = true ∧ rest = .error stop) := by
  rw [Call.checkArity_bind_eq_error, arguments_callOf, List.length_map]
  rfl

section Numeric

variable {b : Builtin} {apply : List Float → Option Float} {f : NumericFunction}

theorem run_rule_eq_ok (hr : b.rule = .numeric apply) :
    (Callable.builtin b).run (s.callOf name arguments) = .ok v ↔
      b.arity.admits arguments.length = true ∧ ∃ xs x,
        (s.callOf name arguments).numbers = .ok xs ∧ apply xs = some x ∧ .number x = v := by
  change (do (s.callOf name arguments).checkArity b.arity
             b.rule.run (s.callOf name arguments)) = .ok v ↔ _
  rw [checked_eq_ok, hr, Builtin.Rule.run, Outcome.bind_eq_ok]
  refine and_congr_right fun _ => exists_congr fun xs => ?_
  rw [Outcome.bind_eq_ok, exists_and_left]
  simp only [Outcome.expect_eq_ok, Outcome.pure_eq_ok]

theorem run_rule_eq_error (hr : b.rule = .numeric apply)
    (total : ∀ xs : List Float, b.arity.admits xs.length = true → ∃ x, apply xs = some x)
    (h : (Callable.builtin b).run (s.callOf name arguments) = .error stop) :
    WrongCount name arguments b.arity stop ∨ b.arity.admits arguments.length = true ∧
      (s.callOf name arguments).numbers = .error stop := by
  rcases checked_eq_error.1 h with h | ⟨ha, h⟩
  · exact .inl h
  · rw [hr] at h
    rcases Outcome.bind_eq_error.1 h with h | ⟨xs, hx, h⟩
    · exact .inr ⟨ha, h⟩
    · have hl := (numbers_callOf_eq_ok.1 hx).length_eq
      obtain ⟨x, hx⟩ := total xs (hl ▸ ha)
      simp [hx, Outcome.expect] at h

theorem run_numeric_eq_ok :
    (Callable.numeric f).run (s.callOf name arguments) = .ok v ↔
      f.arity.admits arguments.length = true ∧ ∃ xs,
        (s.callOf name arguments).numbers = .ok xs ∧ f.check name xs = none ∧
        .number (f.apply xs) = v := by
  change f.run (s.callOf name arguments) = .ok v ↔ _
  rw [NumericFunction.run, checked_eq_ok, Outcome.bind_eq_ok]
  refine and_congr_right fun _ => exists_congr fun xs => and_congr_right fun _ => ?_
  cases hc : f.check name xs with
  | none => simp [hc]
  | some violation => simp [hc, Call.blameArgument]

theorem run_numeric_eq_error :
    (Callable.numeric f).run (s.callOf name arguments) = .error stop ↔
      WrongCount name arguments f.arity stop ∨ f.arity.admits arguments.length = true ∧
        ((s.callOf name arguments).numbers = .error stop ∨ ∃ xs violation,
          (s.callOf name arguments).numbers = .ok xs ∧ f.check name xs = some violation ∧
          ((s.callOf name arguments).blameArgument violation.index violation.cause :
            Outcome Value) = .error stop) := by
  change f.run (s.callOf name arguments) = .error stop ↔ _
  rw [NumericFunction.run, checked_eq_error, Outcome.bind_eq_error]
  refine or_congr_right (and_congr_right fun _ => or_congr_right (exists_congr fun xs => ?_))
  rw [exists_and_left]
  refine and_congr_right fun _ => ?_
  cases hc : f.check name xs with
  | none => simp [hc]
  | some violation => simp [hc]

end Numeric

section Radical

theorem run_sqrt :
    (Callable.builtin .sqrt).run (s.callOf name arguments) = (do
      (s.callOf name arguments).checkArity (.exactly 1)
      Radical.squareRoot (s.callOf name arguments)) :=
  rfl

theorem run_root :
    (Callable.builtin .root).run (s.callOf name arguments) = (do
      (s.callOf name arguments).checkArity (.exactly 2)
      Radical.root (s.callOf name arguments)) :=
  rfl

theorem run_sqrt_one (s : Scope) (name : String) (radicand : Equation) :
    (Callable.builtin .sqrt).run (s.callOf name [radicand]) = (do
      Radical.squareRootOf (s.callOf name [radicand]) (← s.evaluate radicand)) := by
  have harity : (s.callOf name [radicand]).checkArity (.exactly 1) = .ok () :=
    Call.checkArity_eq_ok.2 rfl
  rw [run_sqrt, harity, Outcome.ok_bind,
    Radical.squareRoot_eq (s.arguments_callOf name [radicand]), valueOf_callOf]

theorem run_root_two (s : Scope) (name : String) (index radicand : Equation) :
    (Callable.builtin .root).run (s.callOf name [index, radicand]) = (do
      match (← s.evaluate index).number? with
      | some k => Radical.rootOf (s.callOf name [index, radicand]) k (← s.evaluate radicand)
      | none => Outcome.blame index (.numbersOnly name)) := by
  have harity : (s.callOf name [index, radicand]).checkArity (.exactly 2) = .ok () :=
    Call.checkArity_eq_ok.2 rfl
  rw [run_root, harity, Outcome.ok_bind,
    Radical.root_eq (s.arguments_callOf name [index, radicand])]
  simp only [valueOf_callOf]
  rfl

theorem run_root_two_of_index {index radicand : Equation} {k : Float}
    (hk : s.evaluate index = .ok (.number k)) :
    (Callable.builtin .root).run (s.callOf name [index, radicand]) = (do
      Radical.rootOf (s.callOf name [index, radicand]) k (← s.evaluate radicand)) := by
  rw [run_root_two, hk]
  rfl

theorem run_sqrt_eq_ok :
    (Callable.builtin .sqrt).run (s.callOf name arguments) = .ok v ↔
      ∃ radicand w, arguments = [radicand] ∧ s.evaluate radicand = .ok w ∧
        Radical.squareRootOf (s.callOf name arguments) w = .ok v := by
  constructor
  · intro h
    obtain ⟨ha, -⟩ := checked_eq_ok.1 (run_sqrt.symm.trans h)
    obtain ⟨radicand, rfl⟩ := List.length_eq_one_iff.1 (Arity.admits_exactly.1 ha)
    rw [run_sqrt_one] at h
    obtain ⟨w, hw, h⟩ := Outcome.bind_eq_ok.1 h
    exact ⟨radicand, w, rfl, hw, h⟩
  · rintro ⟨radicand, w, rfl, hw, h⟩
    rw [run_sqrt_one]
    exact Outcome.bind_eq_ok.2 ⟨w, hw, h⟩

theorem run_sqrt_eq_error
    (h : (Callable.builtin .sqrt).run (s.callOf name arguments) = .error stop) :
    WrongCount name arguments (.exactly 1) stop ∨ ∃ radicand, arguments = [radicand] ∧
      (s.evaluate radicand = .error stop ∨ ∃ w, s.evaluate radicand = .ok w ∧
        Radical.squareRootOf (s.callOf name arguments) w = .error stop) := by
  rcases checked_eq_error.1 (run_sqrt.symm.trans h) with hc | ⟨ha, -⟩
  · exact .inl hc
  · obtain ⟨radicand, rfl⟩ := List.length_eq_one_iff.1 (Arity.admits_exactly.1 ha)
    rw [run_sqrt_one] at h
    exact .inr ⟨radicand, rfl, Outcome.bind_eq_error.1 h⟩

theorem run_root_eq_ok :
    (Callable.builtin .root).run (s.callOf name arguments) = .ok v ↔
      ∃ index radicand k w, arguments = [index, radicand] ∧
        s.evaluate index = .ok (.number k) ∧ s.evaluate radicand = .ok w ∧
        Radical.rootOf (s.callOf name arguments) k w = .ok v := by
  constructor
  · intro h
    obtain ⟨ha, -⟩ := checked_eq_ok.1 (run_root.symm.trans h)
    obtain ⟨index, radicand, rfl⟩ := List.length_eq_two.1 (Arity.admits_exactly.1 ha)
    rw [run_root_two] at h
    obtain ⟨i, hi, h⟩ := Outcome.bind_eq_ok.1 h
    cases i with
    | number k =>
      obtain ⟨w, hw, h⟩ := Outcome.bind_eq_ok.1 h
      exact ⟨index, radicand, k, w, rfl, hi, hw, h⟩
    | matrix m => exact absurd h Outcome.blame_ne_ok
    | measured u q => exact absurd h Outcome.blame_ne_ok
  · rintro ⟨index, radicand, k, w, rfl, hi, hw, h⟩
    rw [run_root_two_of_index hi]
    exact Outcome.bind_eq_ok.2 ⟨w, hw, h⟩

theorem run_root_eq_error
    (h : (Callable.builtin .root).run (s.callOf name arguments) = .error stop) :
    WrongCount name arguments (.exactly 2) stop ∨ ∃ index radicand,
      arguments = [index, radicand] ∧ (s.evaluate index = .error stop ∨
        (∃ i, s.evaluate index = .ok i ∧ i.number? = none ∧
          stop = .fault ⟨.numbersOnly name, index⟩) ∨
        ∃ k, s.evaluate index = .ok (.number k) ∧ (s.evaluate radicand = .error stop ∨
          ∃ w, s.evaluate radicand = .ok w ∧
            Radical.rootOf (s.callOf name arguments) k w = .error stop)) := by
  rcases checked_eq_error.1 (run_root.symm.trans h) with hc | ⟨ha, -⟩
  · exact .inl hc
  · obtain ⟨index, radicand, rfl⟩ := List.length_eq_two.1 (Arity.admits_exactly.1 ha)
    refine .inr ⟨index, radicand, rfl, ?_⟩
    rw [run_root_two] at h
    rcases Outcome.bind_eq_error.1 h with h | ⟨i, hi, h⟩
    · exact .inl h
    · cases i with
      | number k => exact .inr (.inr ⟨k, hi, Outcome.bind_eq_error.1 h⟩)
      | matrix m => exact .inr (.inl ⟨_, hi, rfl, Outcome.blame_eq_error.1 h⟩)
      | measured u q => exact .inr (.inl ⟨_, hi, rfl, Outcome.blame_eq_error.1 h⟩)

theorem refused_of_squareRootOf {radicand : Equation} {f : Fault}
    (h : Radical.squareRootOf (s.callOf name [radicand]) v = .error (.fault f)) :
    f.site = radicand ∧ v.RefusedFor name f.cause := by
  obtain ⟨cause, hc, h⟩ := Radical.refused_of_squareRootOf h
  rw [blameArgument_callOf, Outcome.blame_eq_error] at h
  obtain rfl := Stop.fault.inj h
  exact ⟨rfl, hc⟩

theorem refused_of_rootOf {index radicand : Equation} {k : Float} {f : Fault}
    (h : Radical.rootOf (s.callOf name [index, radicand]) k v = .error (.fault f)) :
    f.site = index ∧ (Value.number k).RefusedFor name f.cause ∨
      f.site = radicand ∧ v.RefusedFor name f.cause := by
  obtain ⟨cause, ⟨hc, h⟩ | ⟨hc, h⟩⟩ := Radical.refused_of_rootOf h
  · rw [blameArgument_callOf, Outcome.blame_eq_error] at h
    obtain rfl := Stop.fault.inj h
    exact .inl ⟨rfl, hc⟩
  · rw [blameArgument_callOf, Outcome.blame_eq_error] at h
    obtain rfl := Stop.fault.inj h
    exact .inr ⟨rfl, hc⟩

end Radical

section Series

theorem run_sum :
    (Callable.builtin .sum).run (s.callOf name arguments) = (do
      (s.callOf name arguments).checkArity (.exactly 4)
      Series.series (s.callOf name arguments)) :=
  rfl

/-- The terms of a sum, added up from one integer to another. -/
def sumOf (s : Scope) (name : String) (arguments : List Equation) (index : String)
    (term : Equation) (low high : Int) : Outcome Value :=
  Series.between (s.callOf name arguments) index (s.argument term) low high

theorem run_sum_eq_ok :
    (Callable.builtin .sum).run (s.callOf name arguments) = .ok v ↔
      ∃ index first last term m n, arguments = [.reference index, first, last, term] ∧
        s.bound? first = some m ∧ s.bound? last = some n ∧
        s.sumOf name arguments index term (min m n) (max m n) = .ok v := by
  rw [run_sum, checked_eq_ok, Arity.admits_exactly]
  constructor
  · rintro ⟨hl, h⟩
    obtain ⟨a, first, last, term, rfl⟩ := List.length_eq_four.1 hl
    cases a with
    | reference index =>
      obtain ⟨m, hm, h⟩ := Outcome.bind_eq_ok.1 h
      obtain ⟨n, hn, h⟩ := Outcome.bind_eq_ok.1 h
      exact ⟨index, first, last, term, m, n, rfl, bound_callOf.1 hm, bound_callOf.1 hn, h⟩
    | _ => exact absurd h Outcome.blame_ne_ok
  · rintro ⟨index, first, last, term, m, n, rfl, hm, hn, h⟩
    refine ⟨rfl, Outcome.bind_eq_ok.2 ⟨m, bound_callOf.2 hm, ?_⟩⟩
    exact Outcome.bind_eq_ok.2 ⟨n, bound_callOf.2 hn, h⟩

/-- A bound of a sum that has no value or is no integer. -/
def BadBound (s : Scope) (e : Equation) (cause : Cause) (stop : Stop) : Prop :=
  s.evaluate e = .error stop ∨
    ∃ w, s.evaluate e = .ok w ∧ Series.bound? w = none ∧ stop = .fault ⟨cause, e⟩

theorem badBound_of_bound {place : Nat} {cause : String → Cause} {e : Equation}
    (he : arguments[place]? = some e)
    (h : Series.bound (s.callOf name arguments) place cause (s.argument e) = .error stop) :
    s.BadBound e (cause name) stop := by
  rcases Series.bound_eq_error.1 h with h | ⟨w, hw, hb, h⟩
  · rw [valueOf_callOf] at h
    exact .inl h
  · rw [valueOf_callOf] at hw
    rw [blameArgument_callOf, he] at h
    exact .inr ⟨w, hw, hb, Outcome.blame_eq_error.1 h⟩

theorem run_sum_eq_error
    (h : (Callable.builtin .sum).run (s.callOf name arguments) = .error stop) :
    WrongCount name arguments (.exactly 4) stop ∨ ∃ head first last term,
      arguments = [head, first, last, term] ∧
        ((∀ index, head ≠ .reference index) ∧
            stop = .fault ⟨.seriesVariable name head.rootName, head⟩ ∨
          ∃ index, head = .reference index ∧ (s.BadBound first (.seriesStart name) stop ∨
            ∃ m, s.bound? first = some m ∧ (s.BadBound last (.seriesEnd name) stop ∨
              ∃ n, s.bound? last = some n ∧
                s.sumOf name arguments index term (min m n) (max m n) = .error stop))) := by
  rcases checked_eq_error.1 (run_sum.symm.trans h) with h | ⟨ha, h⟩
  · exact .inl h
  · obtain ⟨a, first, last, term, rfl⟩ := List.length_eq_four.1 (Arity.admits_exactly.1 ha)
    refine .inr ⟨a, first, last, term, rfl, ?_⟩
    cases a with
    | reference index =>
      refine .inr ⟨index, rfl, ?_⟩
      rcases Outcome.bind_eq_error.1 h with h | ⟨m, hm, h⟩
      · exact .inl (badBound_of_bound rfl h)
      · refine .inr ⟨m, bound_callOf.1 hm, ?_⟩
        rcases Outcome.bind_eq_error.1 h with h | ⟨n, hn, h⟩
        · exact .inl (badBound_of_bound rfl h)
        · exact .inr ⟨n, bound_callOf.1 hn, h⟩
    | _ => exact .inl ⟨by simp, Outcome.blame_eq_error.1 h⟩

end Series

section Defined

variable {parameters : List String} {body : Equation} {captured : Scope}

theorem run_defined_eq_ok :
    (Callable.defined parameters body captured).run (s.callOf name arguments) = .ok v ↔
      arguments.length = parameters.length ∧ ∃ values, arguments.mapM s.evaluate = .ok values ∧
        (captured.entered parameters values s).evaluate body = .ok v := by
  rw [Callable.run_defined, checked_eq_ok, Arity.admits_exactly, Outcome.bind_eq_ok]

theorem run_defined_eq_error :
    (Callable.defined parameters body captured).run (s.callOf name arguments) = .error stop ↔
      WrongCount name arguments (.exactly parameters.length) stop ∨
        arguments.length = parameters.length ∧ (arguments.mapM s.evaluate = .error stop ∨
          ∃ values, arguments.mapM s.evaluate = .ok values ∧
            (captured.entered parameters values s).evaluate body = .error stop) := by
  rw [Callable.run_defined, checked_eq_error, Arity.admits_exactly, Outcome.bind_eq_error]

end Defined

end Scope

end QuantityCalculus
