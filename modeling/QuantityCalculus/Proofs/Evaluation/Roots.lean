import QuantityCalculus.Proofs.CompoundUnit.LowestTerms
import QuantityCalculus.Proofs.Evaluation.Invariance

/-!
Square roots and roots of any index. The index and the radicand are evaluated before either is
checked, the index is checked before the sign of the radicand, and the unit comes last: it is the
root of the unit of the radicand.
-/
namespace QuantityCalculus

/-- What ties a root of index `n` to its radicand. Raised to the index, its unit is that of the
radicand, or does not exist because an exponent of the radicand does not fit in lowest terms. -/
structure Value.IsRootOf (v w : Value) (n : Nat) : Prop where
  bare_iff : (∃ y, v = .number y) ↔ ∃ x, w = .number x
  same : ∀ u, v.units.scale? (.ofInt n) = some u → u.sameUnit w.units = true
  refused_iff : v.units.scale? (.ofInt n) = none ↔
    ∃ symbol, ¬ Representable (w.units.degree symbol)
  sound : w.units.Sound → v.units.scale? (.ofInt n) = some w.units

theorem Value.isRootOf_ofParts {w : Value} {u : CompoundUnit} {n : Nat} {x : Float}
    (hw : w.WellFormed) (hunits : w.units.Exchangeable) (hx : w.quantity = .number x) (hn : 0 < n)
    (hu : w.units.root? n = some u) (y : Float) : (ofParts u (.number y)).IsRootOf w n := by
  have hquantity : (ofParts u (.number y)).quantity = .number y := quantity_ofParts u (.number y)
  have hparts : (ofParts u (.number y)).units = u := units_ofParts u (.number y)
  obtain ⟨hrefused, hback⟩ := hunits.scale?_of_root? hn hu
  refine ⟨?_, ?_, ?_, ?_⟩
  · have hv : (ofParts u (.number y)).WellFormed :=
      wellFormed_ofParts (CompoundUnit.zeroFree_of_map? hu) trivial
    have hsymbols : u.symbols = w.units.symbols := CompoundUnit.symbols_of_root? hunits.ordered
      hunits.zeroFree hunits.proper hn hu
    rw [hv.bare_iff hquantity, hw.bare_iff hx, hparts,
      CompoundUnit.isDimensionless_iff_symbols, hsymbols, CompoundUnit.isDimensionless_iff_symbols]
  · intro r hr
    rw [hparts] at hr
    rw [hback r hr, CompoundUnit.sameUnit_comm]
    exact hunits.proper.sameUnit_lowestTerms
  · rw [hparts]
    exact hrefused
  · intro hsound
    rw [hparts]
    exact CompoundUnit.scale?_of_root? hsound.canonical hsound.inRange hn hu

namespace Scope

/-- The ways for a square root to stop at its radicand, each only after the ones above it are ruled
out. -/
inductive SquareRootStops (s : Scope) (name : String) (radicand : Equation) : Stop → Prop where
  | evaluation {stop : Stop} (h : s.evaluate radicand = .error stop) :
      SquareRootStops s name radicand stop
  | matrix {w : Value} {m : Matrix} (hw : s.evaluate radicand = .ok w)
      (hm : w.quantity = .matrix m) :
      SquareRootStops s name radicand (.fault ⟨.numbersOnly name, radicand⟩)
  | sign {w : Value} {x : Float} (hw : s.evaluate radicand = .ok w) (hx : w.quantity = .number x)
      (hneg : x < 0.0) :
      SquareRootStops s name radicand (.fault ⟨.negativeRadicand name, radicand⟩)
  | units {w : Value} {x : Float} (hw : s.evaluate radicand = .ok w) (hx : w.quantity = .number x)
      (hsign : ¬ x < 0.0) (hu : w.units.root? 2 = none) :
      SquareRootStops s name radicand (.fault ⟨.exponentRange w.units, radicand⟩)

/-- The ways for a root to stop at its index or its radicand, in the same order. -/
inductive RootStops (s : Scope) (name : String) (index radicand : Equation) : Stop → Prop where
  | index {stop : Stop} (h : s.evaluate index = .error stop) : RootStops s name index radicand stop
  | indexKind {i : Value} (hi : s.evaluate index = .ok i) (hn : i.number? = none) :
      RootStops s name index radicand (.fault ⟨.numbersOnly name, index⟩)
  | radicand {k : Float} {stop : Stop} (hk : s.evaluate index = .ok (.number k))
      (h : s.evaluate radicand = .error stop) : RootStops s name index radicand stop
  | matrix {k : Float} {w : Value} {m : Matrix} (hk : s.evaluate index = .ok (.number k))
      (hw : s.evaluate radicand = .ok w) (hm : w.quantity = .matrix m) :
      RootStops s name index radicand (.fault ⟨.numbersOnly name, radicand⟩)
  | indexValue {k x : Float} {w : Value} (hk : s.evaluate index = .ok (.number k))
      (hw : s.evaluate radicand = .ok w) (hx : w.quantity = .number x)
      (hn : Radical.index? k = none) :
      RootStops s name index radicand (.fault ⟨.rootIndex name, index⟩)
  | sign {k x : Float} {w : Value} {n : Nat} (hk : s.evaluate index = .ok (.number k))
      (hw : s.evaluate radicand = .ok w) (hx : w.quantity = .number x)
      (hn : Radical.index? k = some n) (heven : n % 2 = 0) (hneg : x < 0.0) :
      RootStops s name index radicand (.fault ⟨.evenRootOfNegative name, radicand⟩)
  | units {k x : Float} {w : Value} {n : Nat} (hk : s.evaluate index = .ok (.number k))
      (hw : s.evaluate radicand = .ok w) (hx : w.quantity = .number x)
      (hn : Radical.index? k = some n) (hsign : ¬ (n % 2 = 0 ∧ x < 0.0))
      (hu : w.units.root? n = none) :
      RootStops s name index radicand (.fault ⟨.exponentRange w.units, radicand⟩)

variable {s : Scope} {name : String} {index radicand : Equation} {v : Value} {stop : Stop}

theorem run_sqrt_one_eq_error :
    (Callable.builtin .sqrt).run (s.callOf name [radicand]) = .error stop ↔
      s.SquareRootStops name radicand stop := by
  rw [run_sqrt_one, Outcome.bind_eq_error]
  simp only [Radical.squareRootOf_eq_error, blameArgument_callOf, Outcome.blame_eq_error]
  constructor
  · rintro (h | ⟨w, hw, ⟨⟨m, hm⟩, rfl⟩ | ⟨x, hx, ⟨hneg, rfl⟩ | ⟨hsign, hu, rfl⟩⟩⟩)
    · exact .evaluation h
    · exact .matrix hw hm
    · exact .sign hw hx hneg
    · exact .units hw hx hsign hu
  · intro h
    cases h with
    | evaluation h => exact .inl h
    | matrix hw hm => exact .inr ⟨_, hw, .inl ⟨⟨_, hm⟩, rfl⟩⟩
    | sign hw hx hneg => exact .inr ⟨_, hw, .inr ⟨_, hx, .inl ⟨hneg, rfl⟩⟩⟩
    | units hw hx hsign hu => exact .inr ⟨_, hw, .inr ⟨_, hx, .inr ⟨hsign, hu, rfl⟩⟩⟩

theorem run_root_two_eq_error :
    (Callable.builtin .root).run (s.callOf name [index, radicand]) = .error stop ↔
      s.RootStops name index radicand stop := by
  have hroot {k : Float} {w : Value} :
      Radical.rootOf (s.callOf name [index, radicand]) k w = .error stop ↔ _ :=
    Radical.rootOf_eq_error
  simp only [blameArgument_callOf, Outcome.blame_eq_error] at hroot
  constructor
  · intro h
    rcases Outcome.bind_eq_error.1 ((run_root_two ..).symm.trans h) with h | ⟨i, hi, h⟩
    · exact .index h
    cases i with
    | matrix m =>
      obtain rfl := Outcome.blame_eq_error.1 h
      exact .indexKind hi rfl
    | measured u q =>
      obtain rfl := Outcome.blame_eq_error.1 h
      exact .indexKind hi rfl
    | number k =>
      rcases Outcome.bind_eq_error.1 h with h | ⟨w, hw, h⟩
      · exact .radicand hi h
      rcases hroot.1 h with
        ⟨⟨m, hm⟩, rfl⟩ | ⟨x, hx, ⟨hn, rfl⟩ | ⟨n, hn, ⟨heven, hneg, rfl⟩ | ⟨hsign, hu, rfl⟩⟩⟩
      · exact .matrix hi hw hm
      · exact .indexValue hi hw hx hn
      · exact .sign hi hw hx hn heven hneg
      · exact .units hi hw hx hn hsign hu
  · intro h
    cases h with
    | index h =>
      rw [run_root_two, h]
      rfl
    | indexKind hi hn =>
      rw [run_root_two, hi, Outcome.ok_bind, hn]
      rfl
    | radicand hk h =>
      rw [run_root_two_of_index hk, h]
      rfl
    | matrix hk hw hm =>
      rw [run_root_two_of_index hk, hw]
      exact hroot.2 (.inl ⟨⟨_, hm⟩, rfl⟩)
    | indexValue hk hw hx hn =>
      rw [run_root_two_of_index hk, hw]
      exact hroot.2 (.inr ⟨_, hx, .inl ⟨hn, rfl⟩⟩)
    | sign hk hw hx hn heven hneg =>
      rw [run_root_two_of_index hk, hw]
      exact hroot.2 (.inr ⟨_, hx, .inr ⟨_, hn, .inl ⟨heven, hneg, rfl⟩⟩⟩)
    | units hk hw hx hn hsign hu =>
      rw [run_root_two_of_index hk, hw]
      exact hroot.2 (.inr ⟨_, hx, .inr ⟨_, hn, .inr ⟨hsign, hu, rfl⟩⟩⟩)

theorem evaluate_sqrt_eq_ok (hf : s.function? name = some (.builtin .sqrt)) :
    s.evaluate (.call name [radicand]) = .ok v ↔ ∃ w x u,
      s.deeper.evaluate radicand = .ok w ∧ w.quantity = .number x ∧ ¬ x < 0.0 ∧
        w.units.root? 2 = some u ∧ v = .ofParts u (.number x.sqrt) := by
  rw [evaluate_eq_ok, evaluateNode_call hf, run_sqrt_one, Outcome.bind_eq_ok]
  simp only [Radical.squareRootOf_eq_ok, exists_and_left]
  refine and_iff_right_of_imp ?_
  rintro ⟨w, hw, -⟩
  exact (evaluate_eq_ok.1 hw).1.of_deeper

theorem evaluate_root_eq_ok (hf : s.function? name = some (.builtin .root)) :
    s.evaluate (.call name [index, radicand]) = .ok v ↔ ∃ k n w x u,
      s.deeper.evaluate index = .ok (.number k) ∧ Radical.index? k = some n ∧
        s.deeper.evaluate radicand = .ok w ∧ w.quantity = .number x ∧ ¬ (n % 2 = 0 ∧ x < 0.0) ∧
        w.units.root? n = some u ∧ v = .ofParts u (.number (Radical.signedRoot k x)) := by
  rw [evaluate_eq_ok, evaluateNode_call hf]
  constructor
  · rintro ⟨-, h⟩
    obtain ⟨_, _, k, w, hargs, hk, hw, h⟩ := run_root_eq_ok.1 h
    obtain ⟨rfl, rfl⟩ : index = _ ∧ radicand = _ := by simpa using hargs
    obtain ⟨x, n, u, hx, hn, hsign, hu, rfl⟩ := Radical.rootOf_eq_ok.1 h
    exact ⟨k, n, w, x, u, hk, hn, hw, hx, hsign, hu, rfl⟩
  · rintro ⟨k, n, w, x, u, hk, hn, hw, hx, hsign, hu, rfl⟩
    refine ⟨(evaluate_eq_ok.1 hk).1.of_deeper, ?_⟩
    rw [run_root_two_of_index hk, hw]
    exact Radical.rootOf_eq_ok.2 ⟨x, n, u, hx, hn, hsign, hu, rfl⟩

/-- Roots are scalars. A root exists exactly when the index is a bare number that is accepted, the
radicand is a scalar whose sign is, and its unit has a root of that index. Every failure is that of
the depth at the call itself, or else is blamed on the index or on the radicand, in the order of
evaluation. Where values are well-formed and the exponents of their units are fractions of words, in
lowest terms or not, the result is bare only with the radicand, and its unit goes back to that of the
radicand exactly if the exponents of this unit fit in lowest terms. -/
theorem roots_of_scalars (s : Scope) (name : String) (index radicand : Equation) :
    (s.function? name = some (.builtin .sqrt) →
      let call : Equation := .call name [radicand]
      (∀ v, s.evaluate call = .ok v ↔ ∃ w x u,
        s.deeper.evaluate radicand = .ok w ∧ w.quantity = .number x ∧ ¬ x < 0.0 ∧
          w.units.root? 2 = some u ∧ v = .ofParts u (.number x.sqrt)) ∧
      (∀ v, s.evaluate call = .ok v → ∃ y, v.quantity = .number y) ∧
      (∀ stop, s.evaluate call = .error stop ↔
        (∃ n, s.limit = some n ∧ n < s.depth + 1 ∧ stop = .fault ⟨.depth n, call⟩) ∨
          s.HasRoom ∧ s.deeper.SquareRootStops name radicand stop) ∧
      (s.BuiltFrom (fun _ => True) (fun v => v.WellFormed ∧ v.units.Exchangeable) →
        ∀ v w, s.evaluate call = .ok v → s.deeper.evaluate radicand = .ok w → v.IsRootOf w 2)) ∧
    (s.function? name = some (.builtin .root) →
      let call : Equation := .call name [index, radicand]
      (∀ v, s.evaluate call = .ok v ↔ ∃ k n w x u,
        s.deeper.evaluate index = .ok (.number k) ∧ Radical.index? k = some n ∧
          s.deeper.evaluate radicand = .ok w ∧ w.quantity = .number x ∧
          ¬ (n % 2 = 0 ∧ x < 0.0) ∧ w.units.root? n = some u ∧
          v = .ofParts u (.number (Radical.signedRoot k x))) ∧
      (∀ v, s.evaluate call = .ok v → ∃ y, v.quantity = .number y) ∧
      (∀ stop, s.evaluate call = .error stop ↔
        (∃ n, s.limit = some n ∧ n < s.depth + 1 ∧ stop = .fault ⟨.depth n, call⟩) ∨
          s.HasRoom ∧ s.deeper.RootStops name index radicand stop) ∧
      (s.BuiltFrom (fun _ => True) (fun v => v.WellFormed ∧ v.units.Exchangeable) →
        ∀ v w k n, s.evaluate call = .ok v → s.deeper.evaluate radicand = .ok w →
          s.deeper.evaluate index = .ok (.number k) → Radical.index? k = some n →
          v.IsRootOf w n)) := by
  have hgood (h : s.BuiltFrom (fun _ => True) fun v => v.WellFormed ∧ v.units.Exchangeable)
      {w : Value} (hw : s.deeper.evaluate radicand = .ok w) :
      w.WellFormed ∧ w.units.Exchangeable := by
    have hd : s.deeper.BuiltFrom (fun _ => True) fun v => v.WellFormed ∧ v.units.Exchangeable :=
      h.congr rfl rfl
    exact good_of_evaluate (Value.closed_wellFormed.and
      (Value.closed_units CompoundUnit.closed_exchangeable)) hd hw
  refine ⟨?_, ?_⟩
  · intro hf call
    refine ⟨fun v => evaluate_sqrt_eq_ok hf, ?_, ?_, ?_⟩
    · intro v hv
      obtain ⟨_, x, u, -, -, -, -, rfl⟩ := (evaluate_sqrt_eq_ok hf).1 hv
      exact ⟨x.sqrt, Value.quantity_ofParts u _⟩
    · intro stop
      rw [evaluate_eq_error, evaluateNode_call hf, run_sqrt_one_eq_error]
    · intro h v w hv hw
      obtain ⟨w', x, u, hw', hx, -, hu, rfl⟩ := (evaluate_sqrt_eq_ok hf).1 hv
      obtain rfl := Except.ok.inj (hw.symm.trans hw')
      obtain ⟨hwell, hunits⟩ := hgood h hw
      exact Value.isRootOf_ofParts hwell hunits hx (by decide) hu x.sqrt
  · intro hf call
    refine ⟨fun v => evaluate_root_eq_ok hf, ?_, ?_, ?_⟩
    · intro v hv
      obtain ⟨k, _, _, x, u, -, -, -, -, -, -, rfl⟩ := (evaluate_root_eq_ok hf).1 hv
      exact ⟨Radical.signedRoot k x, Value.quantity_ofParts u _⟩
    · intro stop
      rw [evaluate_eq_error, evaluateNode_call hf, run_root_two_eq_error]
    · intro h v w k n hv hw hk hn
      obtain ⟨k', n', w', x, u, hk', hn', hw', hx, -, hu, rfl⟩ := (evaluate_root_eq_ok hf).1 hv
      obtain rfl := Except.ok.inj (hw.symm.trans hw')
      obtain rfl := Value.number.inj (Except.ok.inj (hk.symm.trans hk'))
      obtain rfl := Option.some.inj (hn.symm.trans hn')
      obtain ⟨hwell, hunits⟩ := hgood h hw
      exact Value.isRootOf_ofParts hwell hunits hx (Radical.pos_of_index? hn) hu _

/-- An area as it is read from a document, its exponent not in lowest terms, and sums and roots. -/
def readRootSample : Scope :=
  rootSample.bindValue "read" (.measured ⟨[("m", ⟨4, -2⟩)]⟩ (.number 9.0))

/-- The side of a square goes back to its area, and so does the unit of the fourth root, which has a
fraction for its exponent; that of an area over a negative denominator goes back to the same area in
lowest terms. An index that is no integer is refused. -/
theorem roots_of_scalars_sample :
    let area : Equation := .reference "area"
    (∃ side, readRootSample.evaluate (.call "sqrt" [area]) = .ok side ∧
      side.units.scale? (.ofInt 2) = some ⟨[("m", .ofInt 2)]⟩) ∧
      (∃ v, readRootSample.evaluate (.call "root" [.number 4.0, area]) = .ok v ∧
        v.units.scale? (.ofInt 4) = some ⟨[("m", .ofInt 2)]⟩ ∧ ¬ ∃ y, v = .number y) ∧
      (∃ v u, readRootSample.evaluate (.call "sqrt" [.reference "read"]) = .ok v ∧
        v.units.scale? (.ofInt 2) = some u ∧ u.sameUnit ⟨[("m", ⟨4, -2⟩)]⟩ = true) ∧
      readRootSample.evaluate (.call "root" [.number 0.5, area]) =
        .error (.fault ⟨.rootIndex "root", .number 0.5⟩) := by
  intro area
  have hscope : readRootSample.BuiltFrom (fun _ => True)
      fun v => v.WellFormed ∧ v.units.Exchangeable :=
    (rootSample_builtFrom (by decide)).bindValue _ (by decide)
  have harea : readRootSample.deeper.evaluate area =
      .ok (.measured ⟨[("m", .ofInt 2)]⟩ (.number 9.0)) := rfl
  have hread : readRootSample.deeper.evaluate (.reference "read") =
      .ok (.measured ⟨[("m", ⟨4, -2⟩)]⟩ (.number 9.0)) := rfl
  obtain ⟨hsqrt, -⟩ := roots_of_scalars readRootSample "sqrt" (.number 2.0) area
  obtain ⟨-, -, -, hlaws⟩ := hsqrt rfl
  obtain ⟨-, hfour⟩ := roots_of_scalars readRootSample "root" (.number 4.0) area
  obtain ⟨-, -, -, hlaws'⟩ := hfour rfl
  obtain ⟨hsqrt', -⟩ := roots_of_scalars readRootSample "sqrt" (.number 2.0) (.reference "read")
  obtain ⟨-, -, -, hlaws''⟩ := hsqrt' rfl
  obtain ⟨-, hhalf⟩ := roots_of_scalars readRootSample "root" (.number 0.5) area
  obtain ⟨-, -, herror, -⟩ := hhalf rfl
  refine ⟨⟨_, rfl, (hlaws hscope _ _ rfl harea).sound (by decide)⟩, ⟨_, rfl, ?_⟩,
    ⟨_, _, rfl, rfl, (hlaws'' hscope _ _ rfl hread).same _ rfl⟩, ?_⟩
  · have hroot := hlaws' hscope _ _ 4.0 4 rfl harea rfl rfl
    refine ⟨hroot.sound (by decide), ?_⟩
    rw [hroot.bare_iff]
    rintro ⟨y, hy⟩
    cases hy
  · exact (herror _).2 (.inr ⟨hasRoom_of_limit rfl, .indexValue rfl harea rfl rfl⟩)

/-- The least integer over minus one does not fit in lowest terms, but half of it does, so that there
is no way back from the root to the radicand. And where the limit forbids the call, the radicand is
not to blame, although its own evaluation would fail as well. -/
theorem radicand_not_restored :
    let x : Value := .measured ⟨[("m", ⟨-9223372036854775808, -1⟩)]⟩ (.number 4.0)
    let s : Scope := rootSample.bindValue "x" x
    (s.BuiltFrom (fun _ => True) fun v => v.WellFormed ∧ v.units.Exchangeable) ∧
      s.deeper.evaluate (.reference "x") = .ok x ∧
      (∃ v, s.evaluate (.call "sqrt" [.reference "x"]) = .ok v ∧
        v.units.scale? (.ofInt 2) = none) ∧
      (s.withLimit (some 0)).evaluate (.call "sqrt" [.number 4.0]) =
        .error (.fault ⟨.depth 0, .call "sqrt" [.number 4.0]⟩) ∧
      (s.withLimit (some 0)).deeper.evaluate (.number 4.0) =
        .error (.fault ⟨.depth 0, .number 4.0⟩) := by
  intro x s
  let side : Value := .measured ⟨[("m", .ofInt 4611686018427387904)]⟩ (.number (Float.sqrt 4.0))
  have hroot : x.units.root? 2 = some side.units := by decide
  have hside : s.evaluate (.call "sqrt" [.reference "x"]) = .ok side :=
    (evaluate_sqrt_eq_ok rfl).2 ⟨x, 4.0, side.units, rfl, rfl, by decide, hroot, rfl⟩
  exact ⟨(rootSample_builtFrom (by decide)).bindValue _ (by decide), rfl,
    ⟨side, hside, by decide⟩, rfl, rfl⟩

end Scope

end QuantityCalculus
