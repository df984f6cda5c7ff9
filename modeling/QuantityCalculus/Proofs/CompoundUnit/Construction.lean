import QuantityCalculus.CompoundUnit.Reader
import QuantityCalculus.Proofs.CompoundUnit.Canonical

/-!
Every way to come by a compound unit. Whatever is built, read or computed is canonical, so that
units may be compared by their exponents.
-/
namespace QuantityCalculus.CompoundUnit

variable {u v w : CompoundUnit}

namespace Reader

variable {r r' : Reader} {head : TermHead} {c : Char}

theorem canonical_of_close {n : Int} (h : r.units.Canonical) (hc : r.close head n = .ok w) :
    w.Canonical := by
  unfold close at hc
  split at hc
  · rename_i units hu
    obtain rfl : units = w := Except.ok.inj hc
    exact h.accumulate? (Exponent.reduced_ofInt _) hu
  · cases hc

theorem canonical_of_separate {n : Int} (h : r.units.Canonical)
    (hs : r.separate head n c = .ok r') : r'.units.Canonical := by
  unfold separate at hs
  cases hu : r.close head n with
  | error fault =>
    rw [hu] at hs
    cases hs
  | ok units =>
    rw [hu] at hs
    have hc : units.Canonical := canonical_of_close h hu
    change (if c = '.' then _ else if c = '/' then _ else _) = _ at hs
    split at hs
    · cases hs
      exact hc
    · split at hs
      · cases hs
        exact hc
      · cases hs

theorem units_of_digit {negative : Bool} {first : Nat} {value : Int}
    (h : r.digit head negative first value c = .ok r') : r'.units = r.units := by
  unfold digit at h
  split at h
  · obtain rfl := Except.ok.inj h
    rfl
  · cases h

/-- Only a character that ends a term changes the unit. -/
theorem canonical_of_step (h : r.units.Canonical) (hs : r.step c = .ok r') :
    r'.units.Canonical := by
  unfold step at hs
  split at hs
  · split at hs
    · obtain rfl := Except.ok.inj hs
      exact h
    · cases hs
  · split at hs
    · obtain rfl := Except.ok.inj hs
      exact h
    · split at hs
      · obtain rfl := Except.ok.inj hs
        exact h
      · split at hs
        · exact units_of_digit hs ▸ h
        · exact canonical_of_separate h hs
  · split at hs
    · exact units_of_digit hs ▸ h
    · cases hs
  · split at hs
    · exact units_of_digit hs ▸ h
    · exact canonical_of_separate h hs

theorem canonical_of_finish (h : r.units.Canonical) (hf : r.finish = .ok w) : w.Canonical := by
  unfold finish at hf
  split at hf
  · cases hf
  · exact canonical_of_close h hf
  · cases hf
  · exact canonical_of_close h hf

theorem canonical_of_run {characters : List Char} (h : r.units.Canonical)
    (hr : r.run characters = .ok w) : w.Canonical := by
  induction characters generalizing r with
  | nil => exact canonical_of_finish h hr
  | cons c rest ih =>
    rw [run] at hr
    cases hs : r.step c with
    | error fault =>
      rw [hs] at hr
      cases hr
    | ok r' =>
      rw [hs] at hr
      exact ih (canonical_of_step h hs) hr

end Reader

theorem canonical_of_readCharacters {characters : List Char}
    (h : readCharacters characters = .ok u) : u.Canonical := by
  unfold readCharacters at h
  split at h
  · obtain rfl := Except.ok.inj h
    exact canonical_dimensionless
  · obtain rfl := Except.ok.inj h
    exact canonical_dimensionless
  · exact Reader.canonical_of_run canonical_dimensionless h
  · exact Reader.canonical_of_run canonical_dimensionless h

theorem canonical_of_read {text : String} (h : read text = .ok u) : u.Canonical := by
  simp only [read] at h
  split at h
  · cases h
  · split at h
    · cases h
    · exact canonical_of_readCharacters h

theorem Canonical.foldl_accumulate (h : u.Canonical) (powers : List (String × Int)) :
    (powers.foldl (fun u (symbol, n) => u.accumulate symbol (.ofInt n)) u).Canonical := by
  induction powers generalizing u with
  | nil => exact h
  | cons power rest ih => exact ih (h.accumulate (Exponent.reduced_ofInt power.2))

/-- The units that are got by finitely many operations from given exponents in lowest terms. -/
inductive Built : CompoundUnit → Prop where
  | dimensionless : Built dimensionless
  | base (symbol : String) : Built (base symbol)
  | ofPowers (powers : List (String × Int)) : Built (ofPowers powers)
  | read {text : String} {u : CompoundUnit} (h : read text = .ok u) : Built u
  | accumulateInt {u : CompoundUnit} (hu : Built u) (symbol : String) (n : Int) :
      Built (u.accumulate symbol (.ofInt n))
  | accumulate {u : CompoundUnit} (hu : Built u) (symbol : String) {e : Exponent}
      (he : e.Reduced) : Built (u.accumulate symbol e)
  | combine {u v w : CompoundUnit} {op : Exponent → Exponent → Option Exponent} (hu : Built u)
      (hv : Built v) (hop : ∀ e f r, e.Reduced → f.Reduced → op e f = some r → r.Reduced)
      (h : u.combine? v op = some w) : Built w
  | map {u w : CompoundUnit} {f : Exponent → Option Exponent} (hu : Built u)
      (hf : ∀ e r, e.Reduced → f e = some r → r.Reduced) (h : u.map? f = some w) : Built w
  | multiply {u v w : CompoundUnit} (hu : Built u) (hv : Built v) (h : u.multiply? v = some w) :
      Built w
  | divide {u v w : CompoundUnit} (hu : Built u) (hv : Built v) (h : u.divide? v = some w) :
      Built w
  | scale {u w : CompoundUnit} (hu : Built u) {factor : Exponent} (hf : factor.Reduced)
      (h : u.scale? factor = some w) : Built w
  | power {u w : CompoundUnit} (hu : Built u) {x : Float} (h : u.power? x = some w) : Built w
  | root {u w : CompoundUnit} (hu : Built u) {index : Nat} (h : u.root? index = some w) : Built w

theorem Built.canonical (h : u.Built) : u.Canonical := by
  induction h with
  | dimensionless => exact canonical_dimensionless
  | base symbol => exact canonical_dimensionless.accumulate (Exponent.reduced_ofInt 1)
  | ofPowers powers => exact canonical_dimensionless.foldl_accumulate powers
  | read h => exact canonical_of_read h
  | accumulateInt _ symbol n ih => exact ih.accumulate (Exponent.reduced_ofInt n)
  | accumulate _ symbol he ih => exact ih.accumulate he
  | combine _ _ hop h ihu ihv => exact ihu.combine? ihv hop h
  | map _ hf h ih => exact ih.map? hf h
  | multiply _ _ h ihu ihv => exact ihu.multiply? ihv h
  | divide _ _ h ihu ihv => exact ihu.divide? ihv h
  | scale _ hf h ih => exact ih.scale? hf h
  | power _ h ih => exact ih.power? h
  | root _ h ih => exact ih.root? h

/-- A unit that has been built is canonical. So two of them are the same unit exactly when they have
equal exponents at every symbol, and exactly when they are equal; a unit is dimensionless exactly
when all its exponents are zero; and a sum of exponents that leaves the range changes nothing. -/
theorem built_canonical :
    (∀ u : CompoundUnit, Built u → u.Canonical) ∧
    (∀ u v : CompoundUnit, Built u → Built v →
      (u.sameUnit v = true ↔
        ∀ symbol, (u.exponent symbol).sameValue (v.exponent symbol) = true) ∧
      (u.sameUnit v = true ↔ u = v)) ∧
    (∀ u : CompoundUnit, Built u →
      (u.isDimensionless = true ↔ ∀ symbol, (u.exponent symbol).isZero = true)) ∧
    ∀ (u : CompoundUnit) symbol e, (u.exponent symbol).add? e = none →
      u.accumulate symbol e = u := by
  refine ⟨?_, ?_, ?_, ?_⟩
  · intro u hu
    exact hu.canonical
  · intro u v hu hv
    exact ⟨hu.canonical.sameUnit_iff hv.canonical, hu.canonical.sameUnit_iff_eq hv.canonical⟩
  · intro u hu
    exact hu.canonical.isDimensionless_iff
  · intro u symbol e h
    exact accumulate_of_overflow h

/-- A root of a unit that was read is the unit put together from its exponents, in whatever order,
and the largest exponent does not grow. -/
theorem built_canonical_sample : ∃ u v w : CompoundUnit, u.Built ∧ v.Built ∧ u.Canonical ∧
    (∀ symbol, (u.exponent symbol).sameValue (v.exponent symbol) = true) ∧ u = v ∧
    (∃ symbol, (u.exponent symbol).isZero = false) ∧ w.accumulate "m" .one = w := by
  have hread : read "m2/s" = .ok ⟨[("m", ⟨2, 1⟩), ("s", ⟨-1, 1⟩)]⟩ := by decide
  have hroot : root? ⟨[("m", ⟨2, 1⟩), ("s", ⟨-1, 1⟩)]⟩ 2 =
      some ⟨[("m", ⟨1, 1⟩), ("s", ⟨-1, 2⟩)]⟩ := by decide
  have hu : Built ⟨[("m", ⟨1, 1⟩), ("s", ⟨-1, 2⟩)]⟩ := .root (.read hread) hroot
  have hv : Built ((dimensionless.accumulate "s" ⟨-1, 2⟩).accumulate "m" (.ofInt 1)) :=
    .accumulateInt (.accumulate .dimensionless "s" (by decide)) "m" 1
  obtain ⟨hcanonical, hsame, hzero, hoverflow⟩ := built_canonical
  have hequal := (hsame _ _ hu hv).2.1 (by decide)
  refine ⟨_, _, ofPowers [("m", 9223372036854775807)], hu, hv, hcanonical _ hu,
    (hsame _ _ hu hv).1.1 (by decide), hequal, ?_, hoverflow _ "m" .one (by decide)⟩
  by_contra hc
  have hall := (hzero _ hu).2 fun symbol => by
    by_contra hs
    exact hc ⟨symbol, Bool.eq_false_iff.2 hs⟩
  exact absurd hall (by decide)

end QuantityCalculus.CompoundUnit
