import QuantityCalculus.Proofs.Arithmetic.Operator
import QuantityCalculus.Proofs.Evaluation.Coincidence
import QuantityCalculus.Proofs.Evaluation.Stops
import QuantityCalculus.Proofs.Evaluation.Strictness

/-!
The culprit of a fault. Where functions evaluate their arguments in the scope of the caller and
check nothing but their values, a fault is blamed on the first tree, in the order of evaluation,
that is at fault itself and not through a part of it.
-/
namespace QuantityCalculus

/-- A built-in function other than the sum, or a function of bare numbers without a check. -/
def Callable.IsPlain : Callable → Prop
  | .builtin b => b ≠ .sum
  | .numeric f => ∀ name xs, f.check name xs = none
  | .hosted _ | .defined _ _ _ => False

/-- A matrix literal has this cause for refusing a cell that has a value. -/
def Cause.IsOfCell : Cause → Prop
  | .cellUnits _ _ | .nestedMatrix => True
  | _ => False

/-- A function has this cause for refusing an argument that has a value. -/
def Cause.IsOfArgument : Cause → Prop
  | .numbersOnly _ | .negativeRadicand _ | .rootIndex _ | .evenRootOfNegative _
  | .exponentRange _ => True
  | _ => False

theorem Value.RefusedFor.isOfArgument {v : Value} {name : String} {cause : Cause}
    (h : v.RefusedFor name cause) : cause.IsOfArgument := by
  cases cause with
  | numbersOnly | negativeRadicand | rootIndex | evenRootOfNegative | exponentRange => trivial
  | _ => exact h.elim

namespace Scope

variable {s t : Scope} {e p : Equation} {f : Fault}

def Plain (s : Scope) : Prop :=
  ∀ name g, s.function? name = some g → g.IsPlain

/-- The node evaluates its parts, and all those before the given one have values. -/
def Next (s : Scope) (e p : Equation) : Prop :=
  s.Accepts e ∧ ∃ before after, e.parts = before ++ p :: after ∧
    ∀ q ∈ before, ∃ v, s.evaluate q = .ok v

/-- The operands of an arithmetic operator and the cells of a matrix literal have values. -/
def PartsSettled (s : Scope) (e : Equation) : Prop :=
  (∀ operator left right, e = .binary operator left right → operator ≠ .plusMinus →
    (∃ a, s.evaluate left = .ok a) ∧ ∃ b, s.evaluate right = .ok b) ∧
  ∀ rows, e = .matrix rows → ∀ row ∈ rows, ∀ cell ∈ row, ∃ v, s.evaluate cell = .ok v

theorem Plain.unhosted (h : s.Plain) : s.Unhosted := by
  refine ⟨fun _ _ _ => trivial, ?_⟩
  intro name g hg
  have hp := h name g hg
  cases g with
  | builtin b => exact .builtin b
  | numeric f => exact .numeric trivial
  | hosted run => exact hp.elim
  | defined parameters body captured => exact hp.elim

theorem Plain.not_sum (h : s.Plain) {name : String} :
    s.function? name ≠ some (.builtin .sum) := by
  intro hf
  exact h name _ hf rfl

theorem Plain.not_defined (h : s.Plain) {name : String} {parameters : List String}
    {body : Equation} {captured : Scope} :
    s.function? name ≠ some (.defined parameters body captured) := by
  intro hf
  exact h name _ hf

theorem exists_ok_of_cellsOf {trees : List Equation} {unit : Option CompoundUnit} {xs : List Float}
    (h : s.cellsOf trees = .ok (unit, xs)) : ∀ tree ∈ trees, ∃ v, s.evaluate tree = .ok v := by
  obtain ⟨hall, -⟩ := MatrixLiteral.row_eq_ok (P := fun _ => True) h (by simp) (by simp)
  rw [List.forall₂_map_left_iff] at hall
  intro tree hm
  obtain ⟨x, -, v, hv, -⟩ := Lists.exists_of_forall₂ hall tree hm
  rw [value_argument] at hv
  exact ⟨v, hv⟩

section Unlimited

variable (hs : s.Plain) (hl : s.limit = none)

include hs hl

theorem ComesTo.next (h : s.ComesTo e t p) : t = s.deeper ∧ s.Next e p := by
  have hd : ∀ q, s.deeper.evaluate q = s.evaluate q := evaluate_deeper hs.unhosted hl
  cases h with
  | block => exact ⟨rfl, trivial, [], [], rfl, by simp⟩
  | signed ho => exact ⟨rfl, ho, [], [], rfl, by simp⟩
  | @left _ _ right ho => exact ⟨rfl, ho, [], [right], rfl, by simp⟩
  | @right _ left _ a ho ha =>
    refine ⟨rfl, ho, [left], [], rfl, ?_⟩
    simpa [← hd] using ⟨a, ha⟩
  | @cell rows before after _ unit xs hc hb =>
    refine ⟨rfl, trivial, before, after, hc, ?_⟩
    simpa only [hd] using exists_ok_of_cellsOf hb
  | @argument name g arity before after _ hf _ _ _ hb =>
    refine ⟨rfl, ⟨g, hf⟩, before, after, rfl, ?_⟩
    intro q hq
    obtain ⟨v, hv, -⟩ := hb q hq
    exact ⟨v, hd q ▸ hv⟩
  | first hf | last hf | term hf => exact absurd hf hs.not_sum
  | body hf => exact absurd hf hs.not_defined

/-- A node that raises a fault is to blame itself, its parts being settled, or it blames the next of
its parts for the value that this part has. -/
theorem Raises.blames (h : s.Raises e (.fault f)) :
    f.site = e ∧ s.PartsSettled e ∨
      s.Next e f.site ∧ (∃ v, s.evaluate f.site = .ok v) ∧
        ((∃ rows, e = .matrix rows) ∧ f.cause.IsOfCell ∨
          (∃ name arguments, e = .call name arguments) ∧ f.cause.IsOfArgument) := by
  have hd : ∀ q, s.deeper.evaluate q = s.evaluate q := evaluate_deeper hs.unhosted hl
  generalize hstop : Stop.fault f = stop at h
  cases h with
  | depth hn => simp [hl] at hn
  | operator ho ha hb h =>
    subst hstop
    refine .inl ⟨Arithmetic.site_of_apply h, ?_, by simp⟩
    rintro _ _ _ ⟨rfl, rfl, rfl⟩ -
    exact ⟨⟨_, hd _ ▸ ha⟩, _, hd _ ▸ hb⟩
  | plusMinus =>
    obtain rfl := Stop.fault.inj hstop
    refine .inl ⟨rfl, ?_, by simp⟩
    rintro _ _ _ ⟨rfl, rfl, rfl⟩ ho
    exact absurd rfl ho
  | gap hg =>
    obtain rfl := Stop.fault.inj hstop
    refine .inl ⟨rfl, ?_, ?_⟩
    · rintro _ _ _ rfl
      exact hg.elim
    · rintro _ rfl
      exact hg.elim
  | @cellUnits rows before after tree unit xs v hc hb hv
  | @nested rows before after tree unit xs v hc hb hv =>
    obtain rfl := Stop.fault.inj hstop
    have hbefore := exists_ok_of_cellsOf hb
    simp only [hd] at hbefore hv
    exact .inr ⟨⟨trivial, before, after, hc, hbefore⟩, ⟨v, hv⟩, .inl ⟨⟨rows, rfl⟩, trivial⟩⟩
  | @malformed rows cells hc hm =>
    obtain rfl := Stop.fault.inj hstop
    refine .inl ⟨rfl, by simp, ?_⟩
    rintro _ ⟨rfl⟩ row hr cell hcell
    obtain ⟨xs, -, hx⟩ := Lists.exists_of_forall₂ hc row hr
    obtain ⟨x, -, v, hv, -⟩ := Lists.exists_of_forall₂ hx cell hcell
    exact ⟨v, hd cell ▸ hv⟩
  | hosted hf => exact absurd hf hs.unhosted.not_hosted
  | @notNumber name before after g tree v hf _ hb hv hn =>
    obtain rfl := Stop.fault.inj hstop
    simp only [hd] at hb hv
    exact .inr ⟨⟨⟨g, hf⟩, before, after, rfl, hb⟩, ⟨v, hv⟩, .inr ⟨⟨name, _, rfl⟩, trivial⟩⟩
  | violation hf _ h => simp [hs _ _ hf _ _] at h
  | @squareRoot name radicand v _ hf hv h =>
    subst hstop
    obtain ⟨hsite, hc⟩ := refused_of_squareRootOf h
    rw [hsite]
    exact .inr ⟨⟨⟨_, hf⟩, [], [], rfl, by simp⟩, ⟨v, hd radicand ▸ hv⟩,
      .inr ⟨⟨name, _, rfl⟩, hc.isOfArgument⟩⟩
  | @root name index radicand k v _ hf hk hv h =>
    subst hstop
    rcases refused_of_rootOf h with ⟨hsite, hc⟩ | ⟨hsite, hc⟩
    · rw [hsite]
      exact .inr ⟨⟨⟨_, hf⟩, [], [radicand], rfl, by simp⟩, ⟨_, hd index ▸ hk⟩,
        .inr ⟨⟨name, _, rfl⟩, hc.isOfArgument⟩⟩
    · rw [hsite]
      refine .inr ⟨⟨⟨_, hf⟩, [index], [], rfl, ?_⟩, ⟨v, hd radicand ▸ hv⟩,
        .inr ⟨⟨name, _, rfl⟩, hc.isOfArgument⟩⟩
      simpa [← hd] using ⟨_, hk⟩
  | seriesVariable hf | seriesStart hf | seriesEnd hf | addition hf => exact absurd hf hs.not_sum
  | _ =>
    obtain rfl := Stop.fault.inj hstop
    exact .inl ⟨rfl, by simp, by simp⟩

end Unlimited

/-- Without a limit on the depth, and where all functions are plain, a path leads to the site of a
fault along which everything that is evaluated earlier has a value. Either the site itself has the
fault and, as an operator or a matrix literal, no part with a fault; or it has a value, which the
matrix literal or the call around it refuses. -/
theorem fault_smallest_leftmost (s : Scope) (e : Equation) (f : Fault) (hs : s.Plain)
    (hl : s.limit = none) (h : s.evaluate e = .error (.fault f)) :
    (Relation.ReflTransGen s.Next e f.site ∧ s.evaluate f.site = .error (.fault f) ∧
      s.PartsSettled f.site) ∨
    ∃ p, Relation.ReflTransGen s.Next e p ∧ s.evaluate p = .error (.fault f) ∧
      s.Next p f.site ∧ (∃ v, s.evaluate f.site = .ok v) ∧
      ((∃ rows, p = .matrix rows) ∧ f.cause.IsOfCell ∨
        (∃ name arguments, p = .call name arguments) ∧ f.cause.IsOfArgument) := by
  -- The same fault is followed down to the node that raises it. The scope stays the same up to its
  -- depth, which does not count without a limit.
  induction s, e using below_induction with
  | step s e ih =>
    rcases stops_of_evaluate h with ⟨t, p, hc, hp⟩ | hr
    · obtain ⟨rfl, hn⟩ := hc.next hs hl
      rw [evaluate_deeper hs.unhosted hl] at hp
      obtain ⟨before, after, hparts, -⟩ := hn.2
      have hm : p ∈ e.parts := by simp [hparts]
      rcases ih s p (.part rfl hm) hs hl hp with ⟨hpath, hsite⟩ | ⟨q, hpath, hq⟩
      · exact .inl ⟨hpath.head hn, hsite⟩
      · exact .inr ⟨q, hpath.head hn, hq⟩
    · rcases hr.blames hs hl with ⟨hsite, hsettled⟩ | ⟨hn, hrefused⟩
      · rw [hsite]
        exact .inl ⟨.refl, h, hsettled⟩
      · exact .inr ⟨e, .refl, h, hn, hrefused⟩

/-- A length and the square root. -/
def plainSample : Scope :=
  ⟨.ofList [("length", .measured (.base "m") (.number 6.0))],
    .ofList [("sqrt", .builtin .sqrt)], none, 0⟩

theorem plainSample_plain : plainSample.Plain := by
  intro name g hg
  simp only [plainSample, function?, Bindings.ofList, Bindings.insertAll_cons,
    Bindings.insertAll_nil, Bindings.find?_insert, Bindings.find?_empty] at hg
  split at hg
  · obtain rfl := Option.some.inj hg
    simp [Callable.IsPlain]
  · cases hg

/-- A number is added to a length. -/
def mixedSum : Equation :=
  .binary .plus (.reference "length") (.number 1.0)

/-- Inside a product, the sum is to blame. -/
theorem fault_smallest_leftmost_sample :
    plainSample.evaluate (.binary .dot (.number 2.0) (.block mixedSum)) =
        .error (.fault ⟨.unlikeUnits (.base "m") .dimensionless, mixedSum⟩) ∧
      Relation.ReflTransGen plainSample.Next (.binary .dot (.number 2.0) (.block mixedSum))
        mixedSum := by
  refine ⟨rfl, ?_⟩
  rcases fault_smallest_leftmost plainSample (.binary .dot (.number 2.0) (.block mixedSum))
    ⟨.unlikeUnits (.base "m") .dimensionless, mixedSum⟩ plainSample_plain rfl rfl with
    ⟨hpath, -⟩ | ⟨_, -, -, -, ⟨v, hv⟩, -⟩
  · exact hpath
  · cases hv

end Scope

end QuantityCalculus
