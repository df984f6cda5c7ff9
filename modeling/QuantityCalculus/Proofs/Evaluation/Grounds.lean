import QuantityCalculus.Proofs.Evaluation.Invariance
import QuantityCalculus.Proofs.Evaluation.Stops

/-!
The grounds of a fault. The details of its cause are those of the node that raises it, and they
break the rule that the cause is named for.
-/
namespace QuantityCalculus

/-- There are too few arguments or too many. -/
def Arity.Misses (a : Arity) (found : Nat) : Prop :=
  found < a.least ∨ ∃ most, a.most = some most ∧ most < found

theorem Arity.misses_of_admits {a : Arity} {found : Nat} (h : a.admits found = false) :
    a.Misses found := by
  obtain ⟨least, most⟩ := a
  by_cases hl : least ≤ found
  · cases most with
    | none => simp [Arity.admits, hl] at h
    | some most =>
      have hm : most < found := by simpa [Arity.admits, hl] using h
      exact .inr ⟨most, rfl, hm⟩
  · exact .inl (Nat.lt_of_not_le hl)

namespace Scope

variable {s : Scope} {e : Equation} {f : Fault}

/-- The operands of the node have values that the operator refuses for the cause. -/
def RefusesOperands (s : Scope) (e : Equation) (cause : Cause) : Prop :=
  ∃ operator left right a b, e = .binary operator left right ∧
    s.deeper.evaluate left = .ok a ∧ s.deeper.evaluate right = .ok b ∧
    Arithmetic.Grounds operator a b cause

/-- The node is a sum whose terms up to one integer of the range cannot be added, for the cause, to
the term at the next. -/
def RefusesTerm (s : Scope) (e : Equation) (cause : Cause) : Prop :=
  ∃ name index first last term m n i total v,
    e = .call name [.reference index, first, last, term] ∧
    s.function? name = some (.builtin .sum) ∧
    s.deeper.bound? first = some m ∧ s.deeper.bound? last = some n ∧ i ≤ max m n ∧
    s.deeper.sumOf name [.reference index, first, last, term] index term (min m n) (i - 1) =
      .ok total ∧
    (s.deeper.atIndex index i).evaluate term = .ok v ∧ Arithmetic.Grounds .plus total v cause

/-- The argument at the site has a value that the function called `name` refuses for the cause. -/
def RefusesArgument (s : Scope) (e : Equation) (name : String) (f : Fault) : Prop :=
  ∃ arguments g v, e = .call name arguments ∧ s.function? name = some g ∧ f.site ∈ arguments ∧
    s.deeper.evaluate f.site = .ok v ∧ v.RefusedFor name f.cause

/-- The argument at the site has a value that is no integer. -/
def RefusesBound (s : Scope) (f : Fault) : Prop :=
  ∃ v, s.deeper.evaluate f.site = .ok v ∧ Series.bound? v = none

/-- The node calls a function of bare numbers whose check objects to them. -/
def RefusesNumbers (s : Scope) (e : Equation) (f : Fault) : Prop :=
  ∃ name arguments g xs violation, e = .call name arguments ∧
    s.function? name = some (.numeric g) ∧ (s.deeper.callOf name arguments).numbers = .ok xs ∧
    g.check name xs = some violation ∧
    f = ⟨violation.cause, arguments[violation.index]?.getD e⟩

/-- What the cause of the fault says is so of the node and of the site. -/
def BearsOut (s : Scope) (e : Equation) (f : Fault) : Prop :=
  match f.cause with
  | .unknownFunction name =>
    f.site = e ∧ (∃ arguments, e = .call name arguments) ∧ s.function? name = none
  | .argumentCount name arity found =>
    f.site = e ∧ ∃ arguments g, e = .call name arguments ∧ arguments.length = found ∧
      s.function? name = some g ∧ g.arity? = some arity ∧ arity.Misses found
  | .numbersOnly name | .negativeRadicand name | .rootIndex name | .evenRootOfNegative name =>
    s.RefusesArgument e name f
  | .seriesVariable name found =>
    s.function? name = some (.builtin .sum) ∧
      (∃ first last term, e = .call name [f.site, first, last, term]) ∧
      (∀ index, f.site ≠ .reference index) ∧ found = f.site.rootName
  | .seriesStart name =>
    s.function? name = some (.builtin .sum) ∧
      (∃ index last term, e = .call name [.reference index, f.site, last, term]) ∧
      s.RefusesBound f
  | .seriesEnd name =>
    s.function? name = some (.builtin .sum) ∧
      (∃ index first term, e = .call name [.reference index, first, f.site, term]) ∧
      s.RefusesBound f
  | .unknownVariable name => f.site = e ∧ e = .reference name ∧ s.value? name = none
  | .unlikeUnits _ _ | .unlikeShapes _ _ =>
    f.site = e ∧ (s.RefusesOperands e f.cause ∨ s.RefusesTerm e f.cause)
  | .plusMinus =>
    f.site = e ∧ ((∃ operand, e = .signed .plusMinus operand) ∨
      ∃ left right, e = .binary .plusMinus left right)
  | .scalarProductLengths _ _ | .vectorProductLengths _ _ | .matrixProductShapes _ _
  | .ambiguousVectors | .zeroDivisor | .matrixDivisor | .exponentKind _ =>
    f.site = e ∧ s.RefusesOperands e f.cause
  | .exponentRange _ =>
    f.site = e ∧ s.RefusesOperands e f.cause ∨ ∃ name, s.RefusesArgument e name f
  | .operandKinds _ _ _ => False
  | .comparison relation => f.site = e ∧ ∃ left right, e = .comparison relation left right
  | .cellUnits expected found =>
    ∃ rows first v w, e = .matrix rows ∧ rows.flatten.head? = some first ∧
      f.site ∈ rows.flatten ∧ s.deeper.evaluate first = .ok v ∧
      s.deeper.evaluate f.site = .ok w ∧ expected = v.units ∧ found = w.units ∧
      expected.sameUnit found = false
  | .nestedMatrix =>
    ∃ rows v, e = .matrix rows ∧ f.site ∈ rows.flatten ∧ s.deeper.evaluate f.site = .ok v ∧
      v.quantity.kind = .matrix
  | .malformedMatrix => f.site = e ∧ ∃ rows, e = .matrix rows ∧ Matrix.Misshapen rows
  | .incomplete => f.site = e ∧ e.IsGap
  | .unreadable token => f.site = e ∧ e = .unreadable token
  | .depth limit => f.site = e ∧ s.limit = some limit ∧ limit ≤ s.depth

theorem RefusesOperands.bearsOut (h : s.RefusesOperands e f.cause) (hs : f.site = e) :
    s.BearsOut e f := by
  obtain ⟨cause, site⟩ := f
  cases cause with
  | unlikeUnits | unlikeShapes => exact ⟨hs, .inl h⟩
  | scalarProductLengths | vectorProductLengths | matrixProductShapes => exact ⟨hs, h⟩
  | ambiguousVectors | zeroDivisor | matrixDivisor | exponentKind => exact ⟨hs, h⟩
  | exponentRange => exact .inl ⟨hs, h⟩
  | plusMinus =>
    obtain ⟨_, left, right, _, _, rfl, -, -, rfl⟩ := h
    exact ⟨hs, .inr ⟨left, right, rfl⟩⟩
  | _ =>
    obtain ⟨_, _, _, _, _, -, -, -, hg⟩ := h
    exact hg.elim

theorem RefusesTerm.bearsOut (h : s.RefusesTerm e f.cause) (hs : f.site = e) : s.BearsOut e f := by
  obtain ⟨cause, site⟩ := f
  have hcause : (∃ u v, cause = .unlikeUnits u v) ∨ ∃ p q, cause = .unlikeShapes p q := by
    obtain ⟨_, _, _, _, _, _, _, _, _, _, -, -, -, -, -, -, -, hg⟩ := h
    exact hg.of_plus
  rcases hcause with ⟨u, v, rfl⟩ | ⟨p, q, rfl⟩
  · exact ⟨hs, .inr h⟩
  · exact ⟨hs, .inr h⟩

theorem RefusesArgument.bearsOut {name : String} (h : s.RefusesArgument e name f) :
    s.BearsOut e f := by
  obtain ⟨cause, site⟩ := f
  obtain ⟨arguments, g, v, rfl, hg, hm, hv, hc⟩ := h
  cases cause with
  | numbersOnly | negativeRadicand | rootIndex | evenRootOfNegative =>
    obtain ⟨rfl, hc⟩ := hc
    exact ⟨arguments, g, v, rfl, hg, hm, hv, rfl, hc⟩
  | exponentRange => exact .inr ⟨name, arguments, g, v, rfl, hg, hm, hv, hc⟩
  | _ => exact hc.elim

/-- The unit that is expected of a cell is that of the first one. -/
theorem expected_of_cellsOf {rows : List (List Equation)} {before after : List Equation}
    {tree : Equation} {unit : Option CompoundUnit} {xs : List Float} {w : Value}
    (hc : rows.flatten = before ++ tree :: after) (hb : s.cellsOf before = .ok (unit, xs))
    (hw : s.evaluate tree = .ok w) :
    ∃ first v, rows.flatten.head? = some first ∧ s.evaluate first = .ok v ∧
      unit.getD w.units = v.units := by
  cases before with
  | nil =>
    -- The first cell is compared with itself.
    obtain ⟨rfl, -⟩ := Prod.mk.inj (Except.ok.inj hb)
    exact ⟨tree, w, by simp [hc], hw, rfl⟩
  | cons first rest =>
    obtain ⟨v, hv, rfl⟩ := MatrixLiteral.row_first hb
    rw [value_argument] at hv
    exact ⟨first, v, by simp [hc], hv, rfl⟩

/-- A node that raises a fault bears it out, unless the check of a function says what is wrong. -/
theorem Raises.bearsOut {numeric : NumericFunction → Prop} {good : Value → Prop}
    (h : s.Raises e (.fault f)) (hs : s.BuiltFrom numeric good)
    (hno : ¬ s.RefusesNumbers e f) : s.BearsOut e f := by
  generalize hstop : Stop.fault f = stop at h
  cases h with
  | @depth _ n hl hn =>
    obtain rfl := Stop.fault.inj hstop
    exact ⟨rfl, hl, Nat.le_of_lt_succ hn⟩
  | unbound hn =>
    obtain rfl := Stop.fault.inj hstop
    exact ⟨rfl, rfl, hn⟩
  | @sign operand =>
    obtain rfl := Stop.fault.inj hstop
    exact ⟨rfl, .inl ⟨operand, rfl⟩⟩
  | @plusMinus left right =>
    obtain rfl := Stop.fault.inj hstop
    exact ⟨rfl, .inr ⟨left, right, rfl⟩⟩
  | operator ho ha hb h =>
    subst hstop
    have hr : s.RefusesOperands _ f.cause :=
      ⟨_, _, _, _, _, rfl, ha, hb, Arithmetic.grounds_of_apply h⟩
    exact hr.bearsOut (Arithmetic.site_of_apply h)
  | @comparison relation left right =>
    obtain rfl := Stop.fault.inj hstop
    exact ⟨rfl, left, right, rfl⟩
  | gap hg =>
    obtain rfl := Stop.fault.inj hstop
    exact ⟨rfl, hg⟩
  | unreadable =>
    obtain rfl := Stop.fault.inj hstop
    exact ⟨rfl, rfl⟩
  | @cellUnits rows before after tree unit xs w hc hb hw hu =>
    obtain rfl := Stop.fault.inj hstop
    have hm : tree ∈ rows.flatten := by simp [hc]
    obtain ⟨first, v, hfirst, hv, he⟩ := expected_of_cellsOf hc hb hw
    exact ⟨rows, first, v, w, rfl, hfirst, hm, hv, hw, he, rfl, hu⟩
  | @nested rows before after tree unit xs v hc hb hv hk =>
    obtain rfl := Stop.fault.inj hstop
    have hm : tree ∈ rows.flatten := by simp [hc]
    exact ⟨rows, v, rfl, hm, hv, hk⟩
  | @malformed rows cells hc hm =>
    obtain rfl := Stop.fault.inj hstop
    have hshape := (Matrix.misshapen_of_ofRows? hm).of_forall₂ (hc.flip.imp fun _ _ h => h.flip)
    exact ⟨rfl, rows, rfl, hshape⟩
  | @function name arguments hf =>
    obtain rfl := Stop.fault.inj hstop
    exact ⟨rfl, ⟨arguments, rfl⟩, hf⟩
  | hosted hf => exact absurd hf hs.not_hosted
  | @count name arguments g arity hf ha h =>
    obtain rfl := Stop.fault.inj hstop
    exact ⟨rfl, arguments, g, rfl, rfl, hf, ha, Arity.misses_of_admits h⟩
  | @notNumber name before after g tree v hf hg hb hv hn =>
    obtain rfl := Stop.fault.inj hstop
    exact ⟨_, g, v, rfl, hf, by simp, hv, rfl, hn⟩
  | violation hf hx h =>
    obtain rfl := Stop.fault.inj hstop
    exact absurd ⟨_, _, _, _, _, rfl, hf, hx, h, rfl⟩ hno
  | @squareRoot name radicand v _ hf hv h =>
    subst hstop
    obtain ⟨hsite, hc⟩ := refused_of_squareRootOf h
    have hr : s.RefusesArgument (.call name [radicand]) name f :=
      ⟨_, _, v, rfl, hf, by simp [hsite], hsite ▸ hv, hc⟩
    exact hr.bearsOut
  | @root name index radicand k v _ hf hk hv h =>
    subst hstop
    have hr : s.RefusesArgument (.call name [index, radicand]) name f := by
      rcases refused_of_rootOf h with ⟨hsite, hc⟩ | ⟨hsite, hc⟩
      · exact ⟨_, _, _, rfl, hf, by simp [hsite], hsite ▸ hk, hc⟩
      · exact ⟨_, _, v, rfl, hf, by simp [hsite], hsite ▸ hv, hc⟩
    exact hr.bearsOut
  | @seriesVariable name head first last term hf h =>
    obtain rfl := Stop.fault.inj hstop
    exact ⟨hf, ⟨first, last, term, rfl⟩, h, rfl⟩
  | @seriesStart name index first last term v hf hv h =>
    obtain rfl := Stop.fault.inj hstop
    exact ⟨hf, ⟨index, last, term, rfl⟩, v, hv, h⟩
  | @seriesEnd name index first last term m v hf hm hv h =>
    obtain rfl := Stop.fault.inj hstop
    exact ⟨hf, ⟨index, first, term, rfl⟩, v, hv, h⟩
  | @addition name index first last term m n i total v _ hf hm hn hl hu htotal hv h =>
    subst hstop
    have h : Arithmetic.apply .plus (.call name [.reference index, first, last, term]) total v =
        .error (.fault f) := h
    have hr : s.RefusesTerm (.call name [.reference index, first, last, term]) f.cause :=
      ⟨name, index, first, last, term, m, n, i, total, v, rfl, hf, hm, hn, hu, htotal, hv,
        Arithmetic.grounds_of_apply h⟩
    exact hr.bearsOut (Arithmetic.site_of_apply h)

/-- Where all functions are built-in or defined, an evaluation with a fault has come to a node that
bears it out. -/
theorem fault_truthful (s : Scope) (e : Equation) (f : Fault)
    (hs : s.BuiltFrom (fun _ => False) fun _ => True) (h : s.evaluate e = .error (.fault f)) :
    ∃ t p, s.LeadsTo e t p ∧ t.BearsOut p f := by
  obtain ⟨t, p, hl, hr⟩ := exists_leadsTo h
  have ht := hl.visits.builtFrom hs
  refine ⟨t, p, hl, hr.bearsOut ht ?_⟩
  rintro ⟨name, _, g, _, _, -, hg, -⟩
  cases ht.functions name _ hg with
  | numeric hn => exact hn

/-- The units of a sum of lengths and of a number are not the same. -/
theorem fault_truthful_sample :
    ∃ f, sample.evaluate (.binary .plus sampleSum (.number 1.0)) = .error (.fault f) ∧
      f.cause = .unlikeUnits (.base "m") .dimensionless ∧
      ∃ t p, sample.LeadsTo (.binary .plus sampleSum (.number 1.0)) t p ∧ t.BearsOut p f := by
  refine ⟨_, rfl, rfl, ?_⟩
  exact fault_truthful sample (.binary .plus sampleSum (.number 1.0)) _ (sample_builtFrom trivial)
    rfl

end Scope

end QuantityCalculus
