import Mathlib.Logic.Equiv.Basic
import QuantityCalculus.Proofs.Evaluation.Correspondence
import QuantityCalculus.Proofs.Scope.Renaming

/-!
Names carry no meaning of their own. An equation under new names has the value that it had, or the
fault that it had under the new names, in a scope where what the names stood for stands under the
new ones.
-/
namespace QuantityCalculus

open Outcome

/-- The check of the arguments does nothing with the name of the function but pass it on. -/
def NumericFunction.IsParametric (f : NumericFunction) : Prop :=
  ∀ (r : Renaming) name xs,
    f.check (r.functions name) xs = (f.check name xs).map (Violation.rename r)

/-- The one function does under the new names what the other does under the old ones. -/
inductive Callable.Tracks (r : Renaming) (R : Fault → Fault → Prop) :
    Callable → Callable → Prop where
  | builtin (b : Builtin) : Tracks r R (.builtin b) (.builtin b)
  | numeric {f : NumericFunction} (h : f.IsParametric) : Tracks r R (.numeric f) (.numeric f)
  | defined {parameters parameters' : List String} {body body' : Equation}
      {captured captured' : Scope} (hl : parameters'.length = parameters.length)
      (h : ∀ values caller, ((captured.entered parameters values caller).evaluate body).Parallel R
        ((captured'.entered parameters' values caller).evaluate body')) :
      Tracks r R (.defined parameters body captured) (.defined parameters' body' captured')

theorem Equation.renamedHead_rename (r : Renaming) (e : Equation) :
    RenamedHead r e (e.rename r) := by
  cases e with
  | reference name => exact .index name
  | _ => exact .other (by simp) (by simp [rename]) (rootName_rename r _)

namespace Scope

variable {r : Renaming} {R : Fault → Fault → Prop} {s t : Scope} {e e' p : Equation}

/-- The second scope has under the new names of the tree what the first has under the old ones. -/
structure Renamed (r : Renaming) (R : Fault → Fault → Prop) (s t : Scope) (e : Equation) :
    Prop where
  limit : t.limit = s.limit
  depth : t.depth = s.depth
  distinct : ∀ x y, (Equation.reference x).Within e → (Equation.reference y).Within e →
    r.references x = r.references y → x = y
  values : ∀ x, (Equation.reference x).Within e → t.value? (r.references x) = s.value? x
  functions : ∀ f arguments, (Equation.call f arguments).Within e →
    Option.Rel (Callable.Tracks r R) (s.function? f) (t.function? (r.functions f))
  moves : ∀ p, p.Within e → r.Moves R p (p.rename r)

theorem Renamed.part (h : s.Renamed r R t e) (hp : p ∈ e.parts) :
    s.deeper.Renamed r R t.deeper p := by
  have hwithin {q : Equation} (hq : q.Within p) : q.Within e :=
    hq.trans (Equation.within_of_mem_parts hp)
  refine ⟨h.limit, congrArg (· + 1) h.depth, ?_, ?_, ?_, ?_⟩
  · intro x y hx hy
    exact h.distinct x y (hwithin hx) (hwithin hy)
  · intro x hx
    exact h.values x (hwithin hx)
  · intro f arguments hf
    exact h.functions f arguments (hwithin hf)
  · intro q hq
    exact h.moves q (hwithin hq)

/-- The index of a sum is bound under its new name, which hides no other variable of the term. -/
theorem Renamed.term {name index : String} {first last term : Equation}
    (h : s.Renamed r R t (.call name [.reference index, first, last, term])) (i : Int) :
    (s.deeper.atIndex index i).Renamed r R (t.deeper.atIndex (r.references index) i) term := by
  have hterm := h.part (p := term) (by simp [Equation.parts])
  refine ⟨hterm.limit, hterm.depth, hterm.distinct, ?_, hterm.functions, hterm.moves⟩
  intro x hx
  simp only [atIndex, bindValue, value?, Bindings.find?_insert]
  by_cases hi : index = x
  · simp [hi]
  · have hindex : (Equation.reference index).Within
        (.call name [.reference index, first, last, term]) :=
      Equation.within_of_mem_parts (by simp [Equation.parts])
    have hx' : (Equation.reference x).Within
        (.call name [.reference index, first, last, term]) :=
      hx.trans (Equation.within_of_mem_parts (by simp [Equation.parts]))
    rw [if_neg (mt (h.distinct index x hindex hx') hi), if_neg hi]
    exact hterm.values x hx

theorem evaluate_parallel (hl : t.limit = s.limit) (hd : t.depth = s.depth) (hm : r.Moves R e e')
    (h : (s.deeper.evaluateNode e).Parallel R (t.deeper.evaluateNode e')) :
    (s.evaluate e).Parallel R (t.evaluate e') := by
  have henter : (enter s.limit s.depth e).Parallel R (enter t.limit t.depth e') := by
    rw [hl, hd]
    unfold enter
    cases s.limit with
    | none => exact .value _
    | some n => exact .ite (hm.blame (.depth n)) (.value _)
  rw [evaluate_eq_bind, evaluate_eq_bind]
  exact henter.bind fun _ _ => h

/-- Of its caller a body sees the limit and the depth only. -/
theorem entered_congr (hl : t.limit = s.limit) (hd : t.depth = s.depth) (captured : Scope)
    (parameters : List String) (values : List Value) :
    captured.entered parameters values t = captured.entered parameters values s := by
  rw [entered, entered, hl, hd]

theorem run_parallel {f g : Callable} {name : String} {arguments : List Equation}
    (h : f.Tracks r R g) (hl : t.limit = s.limit) (hd : t.depth = s.depth)
    (hm : r.Moves R (.call name arguments)
      (.call (r.functions name) (arguments.map (Equation.rename r))))
    (hparts : ∀ p ∈ arguments, s.Mirrors r R t p (p.rename r))
    (hterm : ∀ index first last term i, arguments = [.reference index, first, last, term] →
      ((s.atIndex index i).evaluate term).Parallel R
        ((t.atIndex (r.references index) i).evaluate (term.rename r))) :
    (f.run (s.callOf name arguments)).Parallel R
      (g.run (t.callOf (r.functions name) (arguments.map (Equation.rename r)))) := by
  have hpairs : List.Forall₂ (s.Mirrors r R t) arguments (arguments.map (Equation.rename r)) :=
    List.forall₂_map_right_iff.2 (List.forall₂_same.2 hparts)
  cases h with
  | builtin b =>
    by_cases hb : b = .sum
    · subst hb
      refine run_sum_parallel hm (hpairs.imp fun _ _ => Mirrors.moves) ?_
      rintro head first last term rfl
      have hfirst := hparts first (by simp)
      have hlast := hparts last (by simp)
      refine ⟨_, _, _, _, rfl, Equation.renamedHead_rename r head, hfirst.value, hlast.value, ?_⟩
      rintro index i rfl
      exact hterm index first last term i rfl
    · exact run_builtin_parallel hb hm hpairs
  | numeric hparametric => exact run_numeric_parallel hm hpairs fun xs => hparametric r name xs
  | defined hlength hbody =>
    refine run_defined_parallel hm hpairs hlength fun values => ?_
    rw [entered_congr hl hd]
    exact hbody values s

theorem Renamed.parallel (h : s.Renamed r R t e) :
    (s.evaluate e).Parallel R (t.evaluate (e.rename r)) := by
  induction s, e using below_induction generalizing t with
  | step s e ih =>
    have hmoves := h.moves e (.refl e)
    have hpart (p : Equation) (hp : p ∈ e.parts) :
        s.deeper.Mirrors r R t.deeper p (p.rename r) :=
      ⟨h.moves p (Equation.within_of_mem_parts hp), ih s.deeper p (.part rfl hp) (h.part hp)⟩
    refine evaluate_parallel h.limit h.depth hmoves ?_
    cases e with
    | number x => exact .value _
    | reference name =>
      simp only [Equation.rename, evaluateNode, value?_deeper, h.values name (.refl _)]
      cases s.value? name with
      | some v => exact .value v
      | none => exact hmoves.blame (.unknownVariable name)
    | block a => exact (hpart a (by simp [Equation.parts])).value
    | signed operator a =>
      have ha := (hpart a (by simp [Equation.parts])).value
      cases operator with
      | positive => exact ha
      | negative => exact ha.map _
      | plusMinus => exact hmoves.blame .plusMinus
    | binary operator a b =>
      by_cases ho : operator = .plusMinus
      · simp only [Equation.rename, evaluateNode, if_pos ho]
        exact hmoves.blame .plusMinus
      · simp only [Equation.rename, evaluateNode, if_neg ho]
        refine (hpart a (by simp [Equation.parts])).value.bind fun v _ => ?_
        refine (hpart b (by simp [Equation.parts])).value.bind fun w _ => ?_
        exact Arithmetic.apply_parallel hmoves operator v w
    | comparison relation a b => exact hmoves.blame (.comparison relation)
    | call name arguments =>
      have hrel := h.functions name arguments (.refl _)
      rw [Equation.rename_call] at hmoves ⊢
      simp only [evaluateNode, function?_deeper]
      generalize s.function? name = f, t.function? (r.functions name) = g at hrel
      cases hrel with
      | none => exact hmoves.blame (.unknownFunction name)
      | some htracks =>
        refine run_parallel htracks h.limit (congrArg (· + 1) h.depth) hmoves hpart ?_
        rintro index first last term i rfl
        have hbelow := Below.part (t := s.deeper.atIndex index i) (s := s) (p := term)
          (e := .call name [.reference index, first, last, term]) rfl (by simp [Equation.parts])
        exact ih _ term hbelow (h.term i)
    | matrix rows =>
      rw [Equation.rename_matrix] at hmoves ⊢
      refine literal_parallel hmoves (List.forall₂_map_right_iff.2 (List.forall₂_same.2 ?_))
      intro row hr
      refine List.forall₂_map_right_iff.2 (List.forall₂_same.2 fun p hp => ?_)
      exact hpart p (List.mem_flatten_of_mem hr hp)
    | missingOperand => exact hmoves.blame .incomplete
    | missingOperator a b => exact hmoves.blame .incomplete
    | missingSign a => exact hmoves.blame .incomplete
    | missingFunction arguments => exact hmoves.blame .incomplete
    | unreadable token => exact hmoves.blame (.unreadable token)

section Rename

variable (hv : Function.Injective r.references) (hf : Function.Injective r.functions)
include hv hf

theorem renamed_rename {e : Equation} (s : Scope)
    (h : ∀ name f, s.function? name = some f →
      f.Tracks r (fun f g => g = f.rename r) (f.rename r)) :
    s.Renamed r (fun f g => g = f.rename r) (s.rename r) e := by
  refine ⟨limit_rename r s, depth_rename r s, ?_, ?_, ?_, ?_⟩
  · intro x y _ _ heq
    exact hv heq
  · intro x _
    exact value?_rename hv s x
  · intro name _ _
    rw [function?_rename hf]
    cases hn : s.function? name with
    | none => exact .none
    | some f => exact .some (h name f hn)
  · intro p _ cause
    rfl

/-- A defined function does the same under the new names, by induction on how deep the functions
stand that it has captured. -/
theorem tracks_rename {f : Callable} {good : Value → Prop}
    (h : f.BuiltFrom NumericFunction.IsParametric good) :
    f.Tracks r (fun f g => g = f.rename r) (f.rename r) := by
  induction h with
  | builtin b => exact .builtin b
  | numeric hf => exact .numeric hf
  | @defined parameters body captured _ _ ih =>
    refine .defined (List.length_map _) fun values caller => ?_
    rw [entered_rename]
    exact (renamed_rename hv hf (captured.entered parameters values caller) ih).parallel

end Rename

end Scope

theorem Outcome.Parallel.eq_mapError {α : Type} {r : Renaming} {x y : Outcome α}
    (h : x.Parallel (fun f g => g = f.rename r) y) : y = x.mapError (Stop.rename r) := by
  cases h with
  | value a => rfl
  | fault h => rw [h]; rfl
  | defect d => rfl

namespace Scope

variable {s : Scope}

/-- A fault of a call, and that of the call of the same function by another name. A fault that comes
from an argument is passed on as it is. -/
inductive CalledAs (s : Scope) (old new : String) (arguments : List Equation) :
    Fault → Fault → Prop where
  | passed {t : Scope} {p : Equation} {f : Fault} (hp : p ∈ arguments)
      (ht : t = s.deeper ∨ ∃ index i, t = s.deeper.atIndex index i)
      (h : t.evaluate p = .error (.fault f)) : CalledAs s old new arguments f f
  | call (cause : Cause) : CalledAs s old new arguments ⟨cause, .call old arguments⟩
      ⟨cause.rename (.calling new), .call new arguments⟩
  | argument {p : Equation} (hp : p ∈ arguments) (cause : Cause) :
      CalledAs s old new arguments ⟨cause, p⟩ ⟨cause.rename (.calling new), p⟩

theorem evaluate_calledAs {b : Builtin} {old new : String} (arguments : List Equation)
    (hold : s.function? old = some (.builtin b)) (hnew : s.function? new = some (.builtin b)) :
    (s.evaluate (.call old arguments)).Parallel (s.CalledAs old new arguments)
      (s.evaluate (.call new arguments)) := by
  have hcall : (Renaming.calling new).Moves (s.CalledAs old new arguments)
      (.call old arguments) (.call ((Renaming.calling new).functions old) arguments) :=
    .call
  have hparts : List.Forall₂
      (s.deeper.Mirrors (.calling new) (s.CalledAs old new arguments) s.deeper)
      arguments arguments := by
    refine List.forall₂_same.2 fun p hp => ⟨.argument hp, ?_⟩
    exact .refl fun f hf => .passed hp (.inl rfl) hf
  refine evaluate_parallel rfl rfl hcall ?_
  rw [evaluateNode_call hold, evaluateNode_call hnew]
  by_cases hb : b = .sum
  · subst hb
    refine run_sum_parallel hcall (hparts.imp fun _ _ => Mirrors.moves) ?_
    rintro head first last term rfl
    refine ⟨head, first, last, term, rfl, ?_, ?_, ?_, ?_⟩
    · cases head with
      | reference index => exact .index index
      | _ => exact .other (by simp) (by simp) rfl
    · exact .refl fun f hf => .passed (by simp) (.inl rfl) hf
    · exact .refl fun f hf => .passed (by simp) (.inl rfl) hf
    · intro index i _
      exact .refl fun f hf => .passed (by simp) (.inr ⟨index, i, rfl⟩) hf
  · exact run_builtin_parallel hb hcall hparts

section Index

variable {name old new : String} {first last term : Equation}
  (hs : s.BuiltFrom NumericFunction.IsParametric fun _ => True)
  (hf : s.function? name = some (.builtin .sum))
  (hnew : ¬ (Equation.reference new).Within (.call name [.reference old, first, last, term]))

include hs hnew

theorem renamed_index (i : Int) :
    (s.deeper.atIndex old i).Renamed (.ofVariable old new) (fun _ _ => True)
      (s.deeper.atIndex new i) term := by
  have hfresh (x : String) (hx : (Equation.reference x).Within term) : x ≠ new := by
    rintro rfl
    exact hnew (hx.trans (Equation.within_of_mem_parts (by simp [Equation.parts])))
  have hname (x : String) : (Renaming.ofVariable old new).references x =
      if x = old then new else x := rfl
  refine ⟨rfl, rfl, ?_, ?_, ?_, fun _ _ _ => trivial⟩
  · intro x y hx hy h
    have hx := hfresh x hx
    have hy := hfresh y hy
    rw [hname, hname] at h
    split at h <;> split at h <;> simp_all
  · intro x hx
    have hx := hfresh x hx
    rw [hname]
    simp only [atIndex, bindValue, value?, Bindings.find?_insert]
    by_cases ho : x = old
    · simp [ho]
    · simp [ho, Ne.symm ho, Ne.symm hx]
  · intro f _ _
    change Option.Rel _ (s.function? f) (s.function? f)
    cases hf : s.function? f with
    | none => exact .none
    | some g =>
      refine .some ?_
      cases hs.functions f g hf with
      | builtin b => exact .builtin b
      | numeric h => exact .numeric h
      | defined _ _ => exact .defined rfl fun _ _ => .refl fun _ _ => trivial

include hf

theorem evaluate_sum_rename :
    (s.evaluate (.call name [.reference old, first, last, term])).Parallel (fun _ _ => True)
      (s.evaluate (.call name
        [.reference new, first, last, term.rename (.ofVariable old new)])) := by
  have hold : (Renaming.ofVariable old new).references old = new := if_pos rfl
  have hhead : Equation.RenamedHead (.ofVariable old new) (.reference old) (.reference new) := by
    have h := Equation.RenamedHead.index (r := .ofVariable old new) old
    rwa [hold] at h
  refine evaluate_parallel (r := .ofVariable old new) rfl rfl (fun _ => trivial) ?_
  rw [evaluateNode_call hf, evaluateNode_call hf]
  refine run_sum_parallel (r := .ofVariable old new) (fun _ => trivial) ?_ ?_
  · exact .cons (fun _ => trivial) (.cons (fun _ => trivial) (.cons (fun _ => trivial)
      (.cons (fun _ => trivial) .nil)))
  · rintro _ _ _ _ ⟨rfl, rfl⟩
    refine ⟨_, _, _, _, rfl, hhead, .refl fun _ _ => trivial,
      .refl fun _ _ => trivial, ?_⟩
    rintro _ i ⟨rfl⟩
    rw [hold]
    exact (renamed_index hs hnew i).parallel

end Index

/-- An equation under new names, in the scope under the same new names, has the value that it had or
the fault that it had, under the new names. A built-in function that has a second name does the same
under both, and its faults tell the name that it was called by. The index of a sum may have any
name that the sum does not use. -/
theorem evaluation_equivariant (s : Scope)
    (hs : s.BuiltFrom NumericFunction.IsParametric fun _ => True) :
    (∀ r : Renaming, Function.Injective r.references → Function.Injective r.functions →
      ∀ e, (s.rename r).evaluate (e.rename r) = (s.evaluate e).mapError (Stop.rename r)) ∧
    (∀ b old new, s.function? old = some (.builtin b) → s.function? new = some (.builtin b) →
      ∀ arguments, (s.evaluate (.call old arguments)).Parallel (s.CalledAs old new arguments)
        (s.evaluate (.call new arguments))) ∧
    ∀ name, s.function? name = some (.builtin .sum) → ∀ old new first last term,
      ¬ (Equation.reference new).Within (.call name [.reference old, first, last, term]) →
      ∀ v, s.evaluate (.call name [.reference old, first, last, term]) = .ok v ↔
        s.evaluate (.call name
          [.reference new, first, last, term.rename (.ofVariable old new)]) = .ok v := by
  refine ⟨?_, ?_, ?_⟩
  · intro r hv hf e
    have htracks (name : String) (f : Callable) (hn : s.function? name = some f) :=
      tracks_rename hv hf (hs.functions name f hn)
    exact (renamed_rename hv hf s htracks).parallel.eq_mapError
  · intro b old new hold hnew arguments
    exact evaluate_calledAs arguments hold hnew
  · intro name hf old new first last term hnew v
    exact (evaluate_sum_rename hs hf hnew).eq_ok_iff

/-- A width in place of the length, which is split and not shared. -/
def sampleRenaming : Renaming :=
  ⟨Equiv.swap "length" "width", Equiv.swap "share" "split"⟩

theorem evaluation_equivariant_sample :
    (sample.rename sampleRenaming).evaluate
        (.call "sum" [.reference "i", .number 1.0, .number 2.0,
          .call "split" [.reference "width", .reference "i"]]) =
      .ok (.measured (.base "m") (.number 9.0)) ∧
    sample.evaluate
        (.call "sum" [.reference "j", .number 1.0, .number 2.0,
          .call "share" [.reference "length", .reference "j"]]) =
      .ok (.measured (.base "m") (.number 9.0)) := by
  have h := evaluation_equivariant sample (sample_builtFrom trivial)
  have hfresh : ¬ (Equation.reference "j").Within sampleSum := by simp [sampleSum]
  constructor
  · have hrenamed := h.1 sampleRenaming (Equiv.injective _) (Equiv.injective _) sampleSum
    rw [evaluate_sampleSum] at hrenamed
    exact hrenamed
  · exact (h.2.2 "sum" rfl "i" "j" _ _ _ hfresh _).1 evaluate_sampleSum

end Scope

end QuantityCalculus
