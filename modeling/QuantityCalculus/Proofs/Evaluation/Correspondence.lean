import QuantityCalculus.Proofs.Arithmetic.Site
import QuantityCalculus.Proofs.Evaluation.Coincidence

/-!
Evaluations of two trees of one form. What a node comes to depends on what its parts come to, and
on the trees in its place and the names in them only for the blame; the first argument of a sum is
the one part that counts by itself.
-/
namespace QuantityCalculus

namespace Equation

/-- Two nodes of one form, the parts of one related to those of the other in their places. -/
inductive Corresponds (R : Equation → Equation → Prop) : Equation → Equation → Prop where
  | number (x : Float) : Corresponds R (.number x) (.number x)
  | reference (name : String) : Corresponds R (.reference name) (.reference name)
  | block {p q : Equation} (h : R p q) : Corresponds R (.block p) (.block q)
  | signed (operator : Sign) {p q : Equation} (h : R p q) :
      Corresponds R (.signed operator p) (.signed operator q)
  | binary (operator : BinaryOperator) {p q p' q' : Equation} (hl : R p p') (hr : R q q') :
      Corresponds R (.binary operator p q) (.binary operator p' q')
  | comparison (relation : Relation) {p q p' q' : Equation} (hl : R p p') (hr : R q q') :
      Corresponds R (.comparison relation p q) (.comparison relation p' q')
  | call (name : String) {ps qs : List Equation} (h : List.Forall₂ R ps qs) :
      Corresponds R (.call name ps) (.call name qs)
  | matrix {rows rows' : List (List Equation)} (h : List.Forall₂ (List.Forall₂ R) rows rows') :
      Corresponds R (.matrix rows) (.matrix rows')
  | missingOperand : Corresponds R .missingOperand .missingOperand
  | missingOperator {p q p' q' : Equation} (hl : R p p') (hr : R q q') :
      Corresponds R (.missingOperator p q) (.missingOperator p' q')
  | missingSign {p q : Equation} (h : R p q) : Corresponds R (.missingSign p) (.missingSign q)
  | missingFunction {ps qs : List Equation} (h : List.Forall₂ R ps qs) :
      Corresponds R (.missingFunction ps) (.missingFunction qs)
  | unreadable (token : Unreadable) : Corresponds R (.unreadable token) (.unreadable token)

/-- As the first argument of a sum, one tree is as good as the other. -/
structure SameHead (p q : Equation) : Prop where
  rootName : p.rootName = q.rootName
  reference : ∀ index, p = .reference index ↔ q = .reference index

/-- As the first argument of a sum, one tree is as good as the other under another name. -/
inductive RenamedHead (r : Renaming) : Equation → Equation → Prop where
  | index (name : String) : RenamedHead r (.reference name) (.reference (r.references name))
  | other {p q : Equation} (hp : ∀ index, p ≠ .reference index)
      (hq : ∀ index, q ≠ .reference index) (hroot : q.rootName = p.rootName) : RenamedHead r p q

theorem SameHead.renamedHead {p q : Equation} (h : p.SameHead q) : RenamedHead .identity p q := by
  by_cases hp : ∃ index, p = .reference index
  · obtain ⟨index, rfl⟩ := hp
    obtain rfl := (h.reference index).1 rfl
    exact .index index
  · have hp (index : String) : p ≠ .reference index := fun he => hp ⟨index, he⟩
    exact .other hp (fun index hq => hp index ((h.reference index).2 hq)) h.rootName.symm

end Equation

namespace Scope

open Outcome

variable {r : Renaming} {R : Fault → Fault → Prop} {s t : Scope} {name : String}
  {ps qs : List Equation}

/-- What one tree comes to in its scope, the other comes to in the other scope. The blame for the
one is that for the other. -/
structure Mirrors (r : Renaming) (R : Fault → Fault → Prop) (s t : Scope) (p q : Equation) :
    Prop where
  moves : r.Moves R p q
  value : (s.evaluate p).Parallel R (t.evaluate q)

section Blame

variable (hc : r.Moves R (.call name ps) (.call (r.functions name) qs))
include hc

theorem checkArity_parallel (hl : ps.length = qs.length) (arity : Arity) :
    ((s.callOf name ps).checkArity arity).Parallel R
      ((t.callOf (r.functions name) qs).checkArity arity) := by
  simp only [Call.checkArity, arguments_callOf, List.length_map, hl]
  exact .ite (.value ()) (hc.blame (.argumentCount name arity qs.length))

variable (hm : List.Forall₂ (r.Moves R) ps qs)
include hm

theorem blameArgument_parallel {α : Type} (index : Nat) (cause : Cause) :
    ((s.callOf name ps).blameArgument index cause : Outcome α).Parallel R
      ((t.callOf (r.functions name) qs).blameArgument index (cause.rename r)) := by
  rw [blameArgument_callOf, blameArgument_callOf]
  by_cases hi : index < ps.length
  · have hi' : index < qs.length := hm.length_eq ▸ hi
    rw [List.getElem?_eq_getElem hi, List.getElem?_eq_getElem hi']
    exact (hm.get hi hi').blame cause
  · have hi' : ¬ index < qs.length := hm.length_eq ▸ hi
    rw [List.getElem?_eq_none (Nat.le_of_not_lt hi), List.getElem?_eq_none (Nat.le_of_not_lt hi')]
    exact hc.blame cause

theorem rooted_parallel (place : Nat) (units : CompoundUnit) (index : Nat) (x : Float) :
    (Radical.rooted (s.callOf name ps) place units index x).Parallel R
      (Radical.rooted (t.callOf (r.functions name) qs) place units index x) := by
  unfold Radical.rooted
  cases units.root? index with
  | some w => exact .value _
  | none => exact blameArgument_parallel hc hm place (.exponentRange units)

theorem squareRootOf_parallel (v : Value) :
    (Radical.squareRootOf (s.callOf name ps) v).Parallel R
      (Radical.squareRootOf (t.callOf (r.functions name) qs) v) := by
  unfold Radical.squareRootOf
  cases v.quantity with
  | matrix m => exact blameArgument_parallel hc hm 0 (.numbersOnly name)
  | number x =>
    exact .ite (blameArgument_parallel hc hm 0 (.negativeRadicand name))
      (rooted_parallel hc hm _ _ _ _)

theorem rootOf_parallel (k : Float) (v : Value) :
    (Radical.rootOf (s.callOf name ps) k v).Parallel R
      (Radical.rootOf (t.callOf (r.functions name) qs) k v) := by
  unfold Radical.rootOf
  cases v.quantity with
  | matrix m => exact blameArgument_parallel hc hm 1 (.numbersOnly name)
  | number x =>
    dsimp only
    split
    · exact blameArgument_parallel hc hm 0 (.rootIndex name)
    · refine .ite (blameArgument_parallel hc hm 1 (.evenRootOfNegative name)) ?_
      exact (expect_parallel _ _).bind fun degree _ => rooted_parallel hc hm _ _ _ _

theorem bound_parallel {place : Nat} {cause : String → Cause} {p q : Equation}
    (hcause : (cause name).rename r = cause (r.functions name))
    (h : (s.evaluate p).Parallel R (t.evaluate q)) :
    (Series.bound (s.callOf name ps) place cause (s.argument p)).Parallel R
      (Series.bound (t.callOf (r.functions name) qs) place cause (t.argument q)) := by
  simp only [Series.bound, valueOf_callOf]
  refine h.bind fun v _ => ?_
  cases Series.bound? v with
  | some n => exact .value n
  | none => exact hcause ▸ blameArgument_parallel hc hm place (cause name)

end Blame

theorem numbers_parallel (h : List.Forall₂ (Mirrors r R s t) ps qs) :
    (s.callOf name ps).numbers.Parallel R (t.callOf (r.functions name) qs).numbers := by
  simp only [Call.numbers, arguments_callOf, List.mapM_map]
  refine mapM_parallel (h.imp fun p q hpq => ?_)
  simp only [Function.comp_apply, Call.bareNumber, valueOf_callOf]
  refine hpq.value.bind fun v _ => ?_
  cases v with
  | number x => exact .value x
  | matrix m => exact hpq.moves.blame (.numbersOnly name)
  | measured u q => exact hpq.moves.blame (.numbersOnly name)

theorem squareRoot_parallel {p q : Equation}
    (hc : r.Moves R (.call name [p]) (.call (r.functions name) [q])) (h : s.Mirrors r R t p q) :
    (Radical.squareRoot (s.callOf name [p])).Parallel R
      (Radical.squareRoot (t.callOf (r.functions name) [q])) := by
  rw [Radical.squareRoot_eq (s.arguments_callOf name [p]),
    Radical.squareRoot_eq (t.arguments_callOf (r.functions name) [q]), valueOf_callOf,
    valueOf_callOf]
  exact h.value.bind fun v _ => squareRootOf_parallel hc (.cons h.moves .nil) v

theorem root_parallel {index index' p q : Equation}
    (hc : r.Moves R (.call name [index, p]) (.call (r.functions name) [index', q]))
    (hi : s.Mirrors r R t index index') (h : s.Mirrors r R t p q) :
    (Radical.root (s.callOf name [index, p])).Parallel R
      (Radical.root (t.callOf (r.functions name) [index', q])) := by
  have hm : List.Forall₂ (r.Moves R) [index, p] [index', q] :=
    .cons hi.moves (.cons h.moves .nil)
  rw [Radical.root_eq (s.arguments_callOf name [index, p]),
    Radical.root_eq (t.arguments_callOf (r.functions name) [index', q])]
  simp only [valueOf_callOf]
  refine hi.value.bind fun w _ => ?_
  cases w.number? with
  | none => exact blameArgument_parallel hc hm 0 (.numbersOnly name)
  | some k => exact h.value.bind fun v _ => rootOf_parallel hc hm k v

section Terms

variable {index index' : String} {p q : Equation}
  (hc : r.Moves R (.call name ps) (.call (r.functions name) qs))
  (h : ∀ i, ((s.atIndex index i).evaluate p).Parallel R ((t.atIndex index' i).evaluate q))

include hc h

theorem accumulate_parallel (count : Nat) (i : Int) (total : Value) :
    (Series.accumulate (s.callOf name ps) index (s.argument p) count i total).Parallel R
      (Series.accumulate (t.callOf (r.functions name) qs) index' (t.argument q) count i
        total) := by
  induction count generalizing i total with
  | zero => exact .value total
  | succ count ih =>
    simp only [Series.accumulate, termAt_callOf]
    refine (h i).bind fun v _ => ?_
    refine (Arithmetic.plus_parallel hc total v).bind fun w _ => ?_
    exact ih (i + 1) w

theorem sumOf_parallel (low high : Int) :
    (s.sumOf name ps index p low high).Parallel R
      (t.sumOf (r.functions name) qs index' q low high) := by
  unfold sumOf Series.between
  refine .ite ?_ (.defect _)
  simp only [termAt_callOf]
  exact (h low).bind fun v _ => accumulate_parallel hc h _ _ v

end Terms

theorem series_of_head {head first last term : Equation} (h : ∀ index, head ≠ .reference index) :
    Series.series (s.callOf name [head, first, last, term]) =
      blame head (.seriesVariable name head.rootName) := by
  cases head with
  | reference index => exact absurd rfl (h index)
  | _ => rfl

theorem series_parallel {head first last term head' first' last' term' : Equation}
    (hc : r.Moves R (.call name [head, first, last, term])
      (.call (r.functions name) [head', first', last', term']))
    (hm : List.Forall₂ (r.Moves R) [head, first, last, term] [head', first', last', term'])
    (hhead : Equation.RenamedHead r head head')
    (hfirst : (s.evaluate first).Parallel R (t.evaluate first'))
    (hlast : (s.evaluate last).Parallel R (t.evaluate last'))
    (hterm : ∀ index i, head = .reference index → ((s.atIndex index i).evaluate term).Parallel R
      ((t.atIndex (r.references index) i).evaluate term')) :
    (Series.series (s.callOf name [head, first, last, term])).Parallel R
      (Series.series (t.callOf (r.functions name) [head', first', last', term'])) := by
  cases hhead with
  | index index =>
    refine (bound_parallel hc hm rfl hfirst).bind fun m _ => ?_
    refine (bound_parallel hc hm rfl hlast).bind fun n _ => ?_
    exact sumOf_parallel hc (fun i => hterm index i rfl) _ _
  | other hp hq hroot =>
    obtain _ | ⟨hmoves, -⟩ := hm
    rw [series_of_head hp, series_of_head hq, hroot]
    exact hmoves.blame (.seriesVariable name head.rootName)

theorem run_builtin_parallel {b : Builtin} (hb : b ≠ .sum)
    (hc : r.Moves R (.call name ps) (.call (r.functions name) qs))
    (h : List.Forall₂ (Mirrors r R s t) ps qs) :
    ((Callable.builtin b).run (s.callOf name ps)).Parallel R
      ((Callable.builtin b).run (t.callOf (r.functions name) qs)) := by
  refine (checkArity_parallel hc h.length_eq b.arity).bind fun _ ha => ?_
  have ha := Call.checkArity_eq_ok.1 ha
  rw [arguments_callOf, List.length_map] at ha
  rcases b.rule_cases with ⟨apply, hr, -⟩ | rfl | rfl | rfl
  · rw [hr]
    refine (numbers_parallel h).bind fun xs _ => ?_
    exact (expect_parallel _ _).bind fun x _ => .value _
  · obtain ⟨p, rfl⟩ := List.length_eq_one_iff.1 (Arity.admits_exactly.1 ha)
    obtain _ | ⟨hp, ⟨⟩⟩ := h
    exact squareRoot_parallel hc hp
  · obtain ⟨index, p, rfl⟩ := List.length_eq_two.1 (Arity.admits_exactly.1 ha)
    obtain _ | ⟨hi, _ | ⟨hp, ⟨⟩⟩⟩ := h
    exact root_parallel hc hi hp
  · exact absurd rfl hb

theorem run_sum_parallel (hc : r.Moves R (.call name ps) (.call (r.functions name) qs))
    (hm : List.Forall₂ (r.Moves R) ps qs)
    (h : ∀ head first last term, ps = [head, first, last, term] →
      ∃ head' first' last' term', qs = [head', first', last', term'] ∧
        Equation.RenamedHead r head head' ∧
        (s.evaluate first).Parallel R (t.evaluate first') ∧
        (s.evaluate last).Parallel R (t.evaluate last') ∧
        ∀ index i, head = .reference index → ((s.atIndex index i).evaluate term).Parallel R
          ((t.atIndex (r.references index) i).evaluate term')) :
    ((Callable.builtin .sum).run (s.callOf name ps)).Parallel R
      ((Callable.builtin .sum).run (t.callOf (r.functions name) qs)) := by
  rw [run_sum, run_sum]
  refine (checkArity_parallel hc hm.length_eq (.exactly 4)).bind fun _ ha => ?_
  have ha := Call.checkArity_eq_ok.1 ha
  rw [arguments_callOf, List.length_map] at ha
  obtain ⟨head, first, last, term, rfl⟩ := List.length_eq_four.1 (Arity.admits_exactly.1 ha)
  obtain ⟨head', first', last', term', rfl, hhead, hfirst, hlast, hterm⟩ := h _ _ _ _ rfl
  exact series_parallel hc hm hhead hfirst hlast hterm

theorem run_numeric_parallel {f : NumericFunction}
    (hc : r.Moves R (.call name ps) (.call (r.functions name) qs))
    (h : List.Forall₂ (Mirrors r R s t) ps qs)
    (hcheck : ∀ xs, f.check (r.functions name) xs = (f.check name xs).map (Violation.rename r)) :
    ((Callable.numeric f).run (s.callOf name ps)).Parallel R
      ((Callable.numeric f).run (t.callOf (r.functions name) qs)) := by
  refine (checkArity_parallel hc h.length_eq f.arity).bind fun _ _ => ?_
  refine (numbers_parallel h).bind fun xs _ => ?_
  simp only [name_callOf, hcheck xs]
  cases f.check name xs with
  | none => exact .value _
  | some violation =>
    exact blameArgument_parallel hc (h.imp fun _ _ => Mirrors.moves) violation.index violation.cause

theorem run_defined_parallel {parameters parameters' : List String} {body body' : Equation}
    {captured captured' : Scope}
    (hc : r.Moves R (.call name ps) (.call (r.functions name) qs))
    (h : List.Forall₂ (Mirrors r R s t) ps qs) (hl : parameters'.length = parameters.length)
    (hbody : ∀ values, ((captured.entered parameters values s).evaluate body).Parallel R
      ((captured'.entered parameters' values t).evaluate body')) :
    ((Callable.defined parameters body captured).run (s.callOf name ps)).Parallel R
      ((Callable.defined parameters' body' captured').run (t.callOf (r.functions name) qs)) := by
  rw [Callable.run_defined, Callable.run_defined, hl]
  refine (checkArity_parallel hc h.length_eq _).bind fun _ _ => ?_
  exact (mapM_parallel (h.imp fun _ _ => Mirrors.value)).bind fun values _ => hbody values

section Cells

theorem cell_parallel {expected : Option CompoundUnit} {p q : Equation}
    (h : s.Mirrors r R t p q) :
    (MatrixLiteral.cell expected s.values (s.argument p)).Parallel R
      (MatrixLiteral.cell expected t.values (t.argument q)) := by
  simp only [MatrixLiteral.cell, value_argument]
  refine h.value.bind fun v _ => .ite ?_ (h.moves.blame (.cellUnits _ _))
  cases v.quantity with
  | number x => exact .value _
  | matrix m => exact h.moves.blame .nestedMatrix

theorem row_parallel {expected : Option CompoundUnit}
    (h : List.Forall₂ (Mirrors r R s t) ps qs) :
    (MatrixLiteral.row expected s.values (ps.map s.argument)).Parallel R
      (MatrixLiteral.row expected t.values (qs.map t.argument)) := by
  induction h generalizing expected with
  | nil => exact .value _
  | cons hpq _ ih => exact (cell_parallel hpq).bind fun ux _ => ih.bind fun uxs _ => .value _

theorem rows_parallel {expected : Option CompoundUnit} {rows rows' : List (List Equation)}
    (h : List.Forall₂ (List.Forall₂ (Mirrors r R s t)) rows rows') :
    (MatrixLiteral.rows expected s.values (rows.map fun row => row.map s.argument)).Parallel R
      (MatrixLiteral.rows expected t.values (rows'.map fun row => row.map t.argument)) := by
  induction h generalizing expected with
  | nil => exact .value _
  | cons hrow _ ih => exact (row_parallel hrow).bind fun uxs _ => ih.bind fun uxss _ => .value _

theorem literal_parallel {site site' : Equation} {rows rows' : List (List Equation)}
    (hc : r.Moves R site site') (h : List.Forall₂ (List.Forall₂ (Mirrors r R s t)) rows rows') :
    (MatrixLiteral.value site s.values (rows.map fun row => row.map s.argument)).Parallel R
      (MatrixLiteral.value site' t.values (rows'.map fun row => row.map t.argument)) := by
  refine (rows_parallel h).bind fun (unit, cells) _ => ?_
  dsimp only
  cases Matrix.ofRows? cells with
  | some m => exact .value _
  | none => exact hc.blame .malformedMatrix

end Cells

/-- Where only the kind of a cause counts, the blame may fall anywhere. -/
theorem moves_of_kind {γ : Type} (kind : Cause → γ) (p q : Equation) :
    Renaming.identity.Moves (fun f g => kind f.cause = kind g.cause) p q := by
  intro cause
  rw [Cause.rename_identity]

section Node

variable {γ : Type} {kind : Cause → γ} {P : Equation → Equation → Prop} {e e' : Equation}
  (hs : s.Unhosted) (ht : t.Unhosted) (hls : s.limit = none) (hlt : t.limit = none)
  (h : e.Corresponds P e')
  (hv : ∀ name, e = .reference name → s.value? name = t.value? name)
  (hf : ∀ name arguments, e = .call name arguments → s.function? name = t.function? name)
  (hpart : ∀ p q, P p q → (s.evaluate p).Akin kind (t.evaluate q))
  (hterm : ∀ name arguments p q index i, e = .call name arguments →
    s.function? name = some (.builtin .sum) → P p q →
    ((s.atIndex index i).evaluate p).Akin kind ((t.atIndex index i).evaluate q))
  (hhead : ∀ name p q rest rest', e = .call name (p :: rest) → e' = .call name (q :: rest') →
    s.function? name = some (.builtin .sum) → rest.length = 3 → p.SameHead q)

include hs ht hls hlt h hv hf hpart hterm hhead

/-- Nodes of one form are akin in two scopes that look up their names alike and in which their parts
are akin. The parts of a sum must be akin under every index, and their heads the same. -/
theorem evaluate_akin : (s.evaluate e).Akin kind (t.evaluate e') := by
  have hmoves := moves_of_kind kind
  have hdeeper (p q : Equation) (hpq : P p q) :
      s.deeper.Mirrors .identity (fun f g => kind f.cause = kind g.cause) t.deeper p q := by
    refine ⟨hmoves p q, akin_iff_parallel.1 ?_⟩
    rw [evaluate_deeper hs hls, evaluate_deeper ht hlt]
    exact hpart p q hpq
  rw [evaluate_eq_node hls, evaluate_eq_node hlt, akin_iff_parallel]
  cases h with
  | reference name =>
    simp only [evaluateNode, value?_deeper, hv name rfl]
    exact .refl fun _ _ => rfl
  | block hpq => exact (hdeeper _ _ hpq).value
  | signed operator hpq =>
    cases operator with
    | positive => exact (hdeeper _ _ hpq).value
    | negative => exact (hdeeper _ _ hpq).value.map _
    | plusMinus => exact (hmoves _ _).blame .plusMinus
  | binary operator hl hr =>
    by_cases ho : operator = .plusMinus
    · simp only [evaluateNode, if_pos ho]
      exact (hmoves _ _).blame .plusMinus
    · simp only [evaluateNode, if_neg ho]
      refine (hdeeper _ _ hl).value.bind fun a _ => (hdeeper _ _ hr).value.bind fun b _ => ?_
      exact Arithmetic.apply_parallel (hmoves _ _) operator a b
  | comparison relation _ _ => exact (hmoves _ _).blame (.comparison relation)
  | @call name ps qs hpqs =>
    have hparts := hpqs.imp hdeeper
    simp only [evaluateNode, function?_deeper, ← hf name ps rfl]
    cases hn : s.function? name with
    | none => exact (hmoves _ _).blame (.unknownFunction name)
    | some f =>
      cases f with
      | builtin b =>
        by_cases hb : b = .sum
        · subst hb
          refine run_sum_parallel (hmoves _ _) (hparts.imp fun _ _ => Mirrors.moves) ?_
          rintro head first last term rfl
          obtain _ | ⟨-, _ | ⟨hfirst, _ | ⟨hlast, _ | ⟨ht', ⟨⟩⟩⟩⟩⟩ := hpqs
          refine ⟨_, _, _, _, rfl, ?_, (hdeeper _ _ hfirst).value, (hdeeper _ _ hlast).value, ?_⟩
          · exact (hhead name _ _ _ _ rfl rfl hn rfl).renamedHead
          · intro index i _
            have hdp := evaluate_deeper (s := s.atIndex index i) (hs.congr rfl) hls term
            have hdq := evaluate_deeper (s := t.atIndex index i) (ht.congr rfl) hlt
            have hterms := hterm name _ _ _ index i rfl hn ht'
            rw [← hdp, ← hdq] at hterms
            exact akin_iff_parallel.1 hterms
        · exact run_builtin_parallel hb (hmoves _ _) hparts
      | numeric f =>
        refine run_numeric_parallel (hmoves _ _) hparts fun xs => ?_
        rw [Violation.rename_identity, Option.map_id]
        rfl
      | hosted run => exact absurd hn hs.not_hosted
      | defined parameters body captured =>
        refine run_defined_parallel (hmoves _ _) hparts rfl fun values => ?_
        -- The body sees the values of the arguments; how deep its caller stands is of no account.
        have ha : (captured.entered parameters values s.deeper).Alike
            (captured.entered parameters values t.deeper) body :=
          ⟨hlt.trans hls.symm, .inl hls, fun _ _ _ => rfl, fun _ _ => rfl⟩
        rw [ha.evaluate_eq ((hs.captured hn).congr rfl)]
        exact .refl fun _ _ => rfl
  | matrix hrows => exact literal_parallel (hmoves _ _) (hrows.imp fun _ _ hrow => hrow.imp hdeeper)
  | number x => exact .value _
  | missingOperand => exact (hmoves _ _).blame .incomplete
  | missingOperator _ _ => exact (hmoves _ _).blame .incomplete
  | missingSign _ => exact (hmoves _ _).blame .incomplete
  | missingFunction _ => exact (hmoves _ _).blame .incomplete
  | unreadable token => exact (hmoves _ _).blame (.unreadable token)

end Node

end Scope

end QuantityCalculus
