import QuantityCalculus.Proofs.Equation.Parts
import QuantityCalculus.Proofs.Evaluation.Calls
import QuantityCalculus.Proofs.MatrixLiteral
import Mathlib.Data.Prod.Lex

/-!
The evaluations that an evaluation starts. They stand below it in a well-founded order: a tree has
smaller parts, and the body of a function is evaluated under functions captured before it was
defined. A value is found only when each of them finds one.
-/
namespace QuantityCalculus

namespace Scope

/-- The evaluations that an evaluation may come to by one step, under whatever variables. -/
inductive Below : Scope × Equation → Scope × Equation → Prop where
  | part {s t : Scope} {e p : Equation} (hf : t.functions = s.functions) (hp : p ∈ e.parts) :
      Below (t, p) (s, e)
  | body {s t : Scope} {e body : Equation} {name : String} {parameters : List String}
      {captured : Scope} (hf : s.function? name = some (.defined parameters body captured))
      (ht : t.functions = captured.functions) : Below (t, body) (s, e)

theorem sizeOf_lt_of_find? {α : Type} [SizeOf α] {b : Bindings α} {name : String} {a : α}
    (h : b.find? name = some a) : sizeOf a < sizeOf b := by
  induction b with
  | empty => simp at h
  | bind bound c rest ih =>
    rw [Bindings.find?] at h
    split at h
    · obtain rfl := Option.some.inj h
      simp only [Bindings.bind.sizeOf_spec]
      omega
    · have := ih h
      simp only [Bindings.bind.sizeOf_spec]
      omega

theorem sizeOf_captured_lt {s captured : Scope} {name : String} {parameters : List String}
    {body : Equation} (h : s.function? name = some (.defined parameters body captured)) :
    sizeOf captured.functions < sizeOf s.functions := by
  have hd := sizeOf_lt_of_find? h
  obtain ⟨values, functions, limit, depth⟩ := captured
  simp only [Callable.defined.sizeOf_spec, mk.sizeOf_spec] at hd
  change sizeOf functions < sizeOf s.functions
  omega

theorem below_wellFounded : WellFounded Below := by
  apply Subrelation.wf ?_ (InvImage.wf (fun p : Scope × Equation =>
    (sizeOf p.1.functions, sizeOf p.2)) (Prod.lex Nat.lt_wfRel Nat.lt_wfRel).wf)
  rintro _ _ (⟨hf, hp⟩ | ⟨hf, ht⟩)
  · rw [InvImage, hf]
    exact Prod.Lex.right _ (Equation.sizeOf_lt_of_mem_parts hp)
  · rw [InvImage, ht]
    exact Prod.Lex.left _ _ (sizeOf_captured_lt hf)

end Scope

/-- The function evaluates all its arguments, and all of them in the scope of its caller. -/
def Callable.IsStrict : Callable → Prop
  | .builtin b => b ≠ .sum
  | .hosted _ => False
  | .numeric _ | .defined _ _ _ => True

/-- The evaluation of a tree starts that of another tree in another scope. -/
inductive Scope.Starts (s : Scope) : Equation → Scope → Equation → Prop where
  | block {child : Equation} : Starts s (.block child) s.deeper child
  | signed {operator : Sign} {operand : Equation} (h : operator ≠ .plusMinus) :
      Starts s (.signed operator operand) s.deeper operand
  | left {operator : BinaryOperator} {left right : Equation} (h : operator ≠ .plusMinus) :
      Starts s (.binary operator left right) s.deeper left
  | right {operator : BinaryOperator} {left right : Equation} (h : operator ≠ .plusMinus) :
      Starts s (.binary operator left right) s.deeper right
  | cell {rows : List (List Equation)} {row : List Equation} {tree : Equation} (hr : row ∈ rows)
      (ht : tree ∈ row) : Starts s (.matrix rows) s.deeper tree
  | argument {name : String} {f : Callable} {arguments : List Equation} {tree : Equation}
      (hf : s.function? name = some f) (hs : f.IsStrict) (ht : tree ∈ arguments) :
      Starts s (.call name arguments) s.deeper tree
  | first {name index : String} {first last term : Equation}
      (hf : s.function? name = some (.builtin .sum)) :
      Starts s (.call name [.reference index, first, last, term]) s.deeper first
  | last {name index : String} {first last term : Equation}
      (hf : s.function? name = some (.builtin .sum)) :
      Starts s (.call name [.reference index, first, last, term]) s.deeper last
  | term {name index : String} {first last term : Equation} {m n i : Int}
      (hf : s.function? name = some (.builtin .sum)) (hm : s.deeper.bound? first = some m)
      (hn : s.deeper.bound? last = some n) (hl : min m n ≤ i) (hu : i ≤ max m n) :
      Starts s (.call name [.reference index, first, last, term]) (s.deeper.atIndex index i) term
  | body {name : String} {parameters : List String} {body : Equation} {captured : Scope}
      {arguments : List Equation} {values : List Value}
      (hf : s.function? name = some (.defined parameters body captured))
      (hl : arguments.length = parameters.length)
      (hv : arguments.mapM s.deeper.evaluate = .ok values) :
      Starts s (.call name arguments) (captured.entered parameters values s.deeper) body

namespace Scope

variable {s t u : Scope} {e p q : Equation}

theorem Starts.below (h : s.Starts e t p) : Below (t, p) (s, e) := by
  cases h with
  | body hf => exact .body hf rfl
  | cell hr ht => exact .part rfl (List.mem_flatten_of_mem hr ht)
  | argument _ _ ht => exact .part rfl ht
  | _ => exact .part rfl (by simp [Equation.parts])

theorem Starts.limit (h : s.Starts e t p) : t.limit = s.limit := by
  cases h <;> rfl

/-- Every started evaluation stands one level below, that of a body as well. -/
theorem Starts.depth (h : s.Starts e t p) : t.depth = s.depth + 1 := by
  cases h <;> rfl

theorem below_induction {P : Scope → Equation → Prop}
    (step : ∀ s e, (∀ t p, Below (t, p) (s, e) → P t p) → P s e) (s : Scope) (e : Equation) :
    P s e :=
  below_wellFounded.induction (C := fun c => P c.1 c.2) (s, e)
    fun c ih => step c.1 c.2 fun t p h => ih (t, p) h

/-- An evaluation may be taken to have a property that those it starts have. -/
theorem starts_induction {P : Scope → Equation → Prop}
    (step : ∀ s e, (∀ t p, s.Starts e t p → P t p) → P s e) (s : Scope) (e : Equation) : P s e :=
  below_induction (fun s e ih => step s e fun t p h => ih t p h.below) s e

/-- The evaluation of a tree comes, in any number of steps, to that of another. -/
inductive Visits (s : Scope) (e : Equation) : Scope → Equation → Prop where
  | refl : Visits s e s e
  | tail {t u : Scope} {p q : Equation} (h : Visits s e t p) (hs : t.Starts p u q) : Visits s e u q

theorem Visits.limit (h : s.Visits e t p) : t.limit = s.limit := by
  induction h with
  | refl => rfl
  | tail _ hs ih => exact hs.limit.trans ih

theorem Visits.head (hs : s.Starts e t p) (h : t.Visits p u q) : s.Visits e u q := by
  induction h with
  | refl => exact .tail .refl hs
  | tail _ hq ih => exact .tail ih hq

theorem Visits.cases_head (h : s.Visits e t p) :
    t = s ∧ p = e ∨ ∃ u q, s.Starts e u q ∧ u.Visits q t p := by
  induction h with
  | refl => exact .inl ⟨rfl, rfl⟩
  | tail _ hs ih =>
    rcases ih with ⟨rfl, rfl⟩ | ⟨u, q, hu, hq⟩
    · exact .inr ⟨_, _, hs, .refl⟩
    · exact .inr ⟨u, q, hu, .tail hq hs⟩

theorem exists_ok_of_numbers {name : String} {arguments : List Equation} {xs : List Float}
    (h : (s.callOf name arguments).numbers = .ok xs) :
    ∀ a ∈ arguments, ∃ w, s.evaluate a = .ok w := by
  intro a ha
  obtain ⟨x, -, hx⟩ := Lists.exists_of_forall₂ (numbers_callOf_eq_ok.1 h) a ha
  exact ⟨.number x, hx⟩

/-- A call of a strict function has a value only when its arguments have values. -/
theorem exists_ok_of_run {f : Callable} (hf : f.IsStrict) {name : String}
    {arguments : List Equation} {v : Value} (h : f.run (s.callOf name arguments) = .ok v) :
    ∀ a ∈ arguments, ∃ w, s.evaluate a = .ok w := by
  cases f with
  | builtin b =>
    rcases b.rule_cases with ⟨apply, hr, -⟩ | rfl | rfl | rfl
    · obtain ⟨-, xs, x, hx, -⟩ := (run_rule_eq_ok hr).1 h
      exact exists_ok_of_numbers hx
    · obtain ⟨radicand, w, rfl, hw, -⟩ := run_sqrt_eq_ok.1 h
      simpa using ⟨w, hw⟩
    · obtain ⟨index, radicand, k, w, rfl, hi, hw, -⟩ := run_root_eq_ok.1 h
      simpa using ⟨⟨_, hi⟩, w, hw⟩
    · exact absurd rfl hf
  | numeric f =>
    obtain ⟨-, xs, hx, -⟩ := run_numeric_eq_ok.1 h
    exact exists_ok_of_numbers hx
  | hosted run => exact hf.elim
  | defined parameters body captured =>
    obtain ⟨-, values, hv, -⟩ := run_defined_eq_ok.1 h
    intro a ha
    obtain ⟨w, -, hw⟩ := Lists.exists_of_forall₂ (Outcome.mapM_eq_ok.1 hv) a ha
    exact ⟨w, hw⟩

/-- An evaluation that finds a value has started none that does not. -/
theorem Starts.exists_ok {v : Value} (hs : s.Starts e t p) (h : s.evaluate e = .ok v) :
    ∃ w, t.evaluate p = .ok w := by
  obtain ⟨-, h⟩ := evaluate_eq_ok.1 h
  cases hs with
  | block => exact ⟨v, h⟩
  | @signed operator _ ho =>
    cases operator with
    | positive => exact ⟨v, h⟩
    | negative =>
      obtain ⟨w, hw, -⟩ := Outcome.map_eq_ok.1 h
      exact ⟨w, hw⟩
    | plusMinus => exact absurd rfl ho
  | left ho =>
    obtain ⟨a, -, ha, -⟩ := (evaluateNode_binary_eq_ok ho).1 h
    exact ⟨a, ha⟩
  | right ho =>
    obtain ⟨-, b, -, hb, -⟩ := (evaluateNode_binary_eq_ok ho).1 h
    exact ⟨b, hb⟩
  | cell hr ht =>
    obtain ⟨u, cells, m, hrows, -, -⟩ := MatrixLiteral.value_eq_ok.1 h
    obtain ⟨hall, -⟩ := MatrixLiteral.rows_eq_ok (P := fun _ => True) hrows (by simp) (by simp)
    rw [List.forall₂_map_left_iff] at hall
    obtain ⟨xs, -, hxs⟩ := Lists.exists_of_forall₂ hall _ hr
    rw [List.forall₂_map_left_iff] at hxs
    obtain ⟨x, -, w, hw, -⟩ := Lists.exists_of_forall₂ hxs _ ht
    rw [value_argument] at hw
    exact ⟨w, hw⟩
  | argument hf hstrict ht =>
    rw [evaluateNode_call hf] at h
    exact exists_ok_of_run hstrict h _ ht
  | first hf =>
    rw [evaluateNode_call hf] at h
    obtain ⟨_, _, _, _, m, n, hargs, hm, -, -⟩ := run_sum_eq_ok.1 h
    cases hargs
    obtain ⟨w, hw, -⟩ := bound?_eq_some.1 hm
    exact ⟨w, hw⟩
  | last hf =>
    rw [evaluateNode_call hf] at h
    obtain ⟨_, _, _, _, m, n, hargs, -, hn, -⟩ := run_sum_eq_ok.1 h
    cases hargs
    obtain ⟨w, hw, -⟩ := bound?_eq_some.1 hn
    exact ⟨w, hw⟩
  | term hf hm hn hl hu =>
    rw [evaluateNode_call hf] at h
    obtain ⟨_, _, _, _, m, n, hargs, hm', hn', h⟩ := run_sum_eq_ok.1 h
    cases hargs
    obtain rfl : _ = m := Option.some.inj (hm.symm.trans hm')
    obtain rfl : _ = n := Option.some.inj (hn.symm.trans hn')
    exact Series.exists_termAt_of_between h hl hu
  | body hf hl hv =>
    rw [evaluateNode_call hf] at h
    obtain ⟨-, values, hv', h⟩ := run_defined_eq_ok.1 h
    obtain rfl : _ = values := Except.ok.inj (hv.symm.trans hv')
    exact ⟨v, h⟩

end Scope

end QuantityCalculus
