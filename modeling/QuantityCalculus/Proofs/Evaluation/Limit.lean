import QuantityCalculus.Proofs.Equation.Height
import QuantityCalculus.Proofs.Evaluation.Coincidence
import QuantityCalculus.Proofs.Evaluation.Grounds
import QuantityCalculus.Proofs.Evaluation.Location
import QuantityCalculus.Proofs.Evaluation.Strictness

/-!
What a limit on the depth does. It turns outcomes into faults of the depth that name it and changes
nothing else; and where no function has a body of its own, a tree with a value has it under a limit
exactly when its height is within the limit.
-/
namespace QuantityCalculus

/-- The function evaluates nothing but its arguments. -/
def Callable.IsPrimitive : Callable → Prop
  | .builtin _ | .numeric _ => True
  | .hosted _ | .defined _ _ _ => False

namespace Scope

variable {s t : Scope} {e p : Equation} {n : Nat}

theorem Unhosted.withLimit (h : s.Unhosted) (limit : Option Nat) : (s.withLimit limit).Unhosted :=
  h.congr rfl

/-- Functions of the scope evaluate nothing but arguments. -/
def Primitive (s : Scope) : Prop :=
  ∀ name f, s.function? name = some f → f.IsPrimitive

theorem Primitive.unhosted (h : s.Primitive) : s.Unhosted := by
  constructor
  · intro _ _ _
    trivial
  · intro name f hf
    have hp := h name f hf
    cases f with
    | builtin b => exact .builtin b
    | numeric f => exact .numeric trivial
    | hosted run => exact hp.elim
    | defined parameters body captured => exact hp.elim

/-- A fault of the depth at a tree that stands at one level. -/
def TooDeep (e : Equation) (n level : Nat) (stop : Stop) : Prop :=
  ∃ p, e.AtLevel level p ∧ stop = .fault ⟨.depth n, p⟩

/-- A limit stops evaluations at the first level beyond it and at no other. -/
theorem evaluate_agrees_of_level (e : Equation) {level : Nat} (hs : s.Primitive)
    (hl : s.limit = some n) (hd : s.depth + level = n + 1) (hlevel : 1 ≤ level) :
    (s.evaluate e).AgreesUnless (TooDeep e n level) ((s.withLimit none).evaluate e) := by
  induction s, e using below_induction generalizing level with
  | step s e ih =>
    rw [evaluate_eq_bind s e, evaluate_eq_bind (s.withLimit none) e]
    rcases s.enter_eq e with ⟨hr, he⟩ | ⟨m, hm, hn, he⟩
    · have hlt := hr n hl
      obtain ⟨level, rfl⟩ : ∃ k, level = k + 1 := ⟨level - 1, by omega⟩
      have hpart (t : Scope) (p : Equation) (hp : p ∈ e.parts) (hf : t.functions = s.functions)
          (htl : t.limit = some n) (htd : t.depth = s.depth + 1) :
          (t.evaluate p).AgreesUnless (TooDeep e n (level + 1))
            ((t.withLimit none).evaluate p) := by
        have ht : t.Primitive := fun name f hn => hs name f (by rwa [function?, ← hf])
        have hroom : 1 ≤ level := by omega
        have hbelow : t.depth + level = n + 1 := by omega
        refine (ih t p (.part hf hp) ht htl hbelow hroom).mono ?_
        rintro stop ⟨q, hq, rfl⟩
        exact ⟨q, hq.of_part hp, rfl⟩
      rw [he]
      apply evaluateNode_agrees
      · intro name _
        rfl
      · intro name arguments _
        rfl
      · intro name run hf
        exact (hs name _ hf).elim
      · intro p hp
        exact hpart s.deeper p hp.place.1 rfl hl rfl
      · rintro name index first last term i rfl -
        exact hpart (s.deeper.atIndex index i) term (by simp [Equation.parts]) rfl hl rfl
      · intro name arguments parameters body captured values _ hf
        exact (hs name _ hf).elim
    · obtain rfl : m = n := Option.some.inj (hm.symm.trans hl)
      obtain rfl : level = 1 := by omega
      rw [he]
      exact .inr ⟨_, rfl, e, .root, rfl⟩

/-- Of every part of a tree with a value, one that is no lower is evaluated. -/
theorem exists_starts_height (hs : s.Unhosted) {v : Value} (h : s.evaluate e = .ok v)
    (hp : p ∈ e.parts) : ∃ t q, s.Starts e t q ∧ p.height ≤ q.height := by
  by_cases hsum : ∃ name arguments, e = .call name arguments ∧
      s.function? name = some (.builtin .sum)
  · obtain ⟨name, arguments, rfl, hf⟩ := hsum
    rcases exists_starts_of_part hs h hp with ⟨index, rfl⟩ | ⟨t, -, ht⟩
    · -- The index of a sum is not evaluated, but no bound is lower than it.
      obtain ⟨_, first, _, _, _, _, rfl, -, -⟩ := sum_of_evaluate hf h
      exact ⟨_, first, .first hf, first.height_pos⟩
    · exact ⟨t, p, ht, Nat.le_refl _⟩
  · refine ⟨_, p, starts_of_part hs h hp ?_, Nat.le_refl _⟩
    intro name arguments he hf
    exact hsum ⟨name, arguments, he, hf⟩

/-- A tree that finds a value under a limit has room for all its levels. -/
theorem depth_add_height_le (hs : s.Unhosted) (hl : s.limit = some n) {v : Value}
    (h : s.evaluate e = .ok v) : s.depth + e.height ≤ n := by
  induction s, e using starts_induction generalizing v with
  | step s e ih =>
    obtain ⟨hr, -⟩ := evaluate_eq_ok.1 h
    have hroom := hr n hl
    by_cases hleaf : 1 < e.height
    · obtain ⟨p, hp, hheight⟩ := Equation.exists_part_height hleaf
      obtain ⟨t, q, hq, hle⟩ := exists_starts_height hs h hp
      obtain ⟨w, hw⟩ := hq.exists_ok h
      have hbound := ih t q hq (Visits.unhosted (.tail .refl hq) hs) (hq.limit.trans hl) hw
      have hdepth := hq.depth
      omega
    · omega

/-- Where functions evaluate nothing but arguments, a tree with a value has it under a limit exactly
when the limit is at least its height. Otherwise the limit is to blame, at a tree on the first level
beyond it. -/
theorem limit_exact (s : Scope) (e : Equation) (v : Value) (n : Nat) (hs : s.Primitive)
    (hd : s.depth = 0) (h : (s.withLimit none).evaluate e = .ok v) :
    ((s.withLimit (some n)).evaluate e = .ok v ↔ e.height ≤ n) ∧
      (¬ e.height ≤ n → ∃ p, e.AtLevel (n + 1) p ∧
        (s.withLimit (some n)).evaluate e = .error (.fault ⟨.depth n, p⟩)) := by
  have hle {w : Value} (hw : (s.withLimit (some n)).evaluate e = .ok w) : e.height ≤ n := by
    have hbound := depth_add_height_le (hs.unhosted.withLimit _) rfl hw
    change s.depth + e.height ≤ n at hbound
    omega
  have hlevel : s.depth + (n + 1) = n + 1 := by omega
  rcases evaluate_agrees_of_level (s := s.withLimit (some n)) e hs rfl hlevel (by omega) with
    heq | ⟨_, herr, p, hp, rfl⟩
  · have hok : (s.withLimit (some n)).evaluate e = .ok v := heq.trans h
    exact ⟨⟨hle, fun _ => hok⟩, fun hn => absurd (hle hok) hn⟩
  · have hheight := hp.le_height
    refine ⟨⟨hle, ?_⟩, fun _ => ⟨p, hp, herr⟩⟩
    intro hn
    omega

theorem standard_primitive : standard.Primitive := by
  intro name f hf
  rcases Bindings.find?_insertAll _ _ hf with hm | hf
  · obtain ⟨_, hb, rfl⟩ := List.mem_map.1 hm
    obtain ⟨b, -, rfl⟩ := List.mem_map.1 hb
    trivial
  · cases hf

/-- Three, once and twice; the third level of the tree is the last. -/
def multiples : Equation :=
  .call "sum" [.reference "i", .number 1.0, .number 2.0,
    .binary .dot (.number 3.0) (.reference "i")]

theorem limit_exact_sample :
    (standard.withLimit (some 3)).evaluate multiples = .ok (.number 9.0) ∧
      ∃ p, multiples.AtLevel 3 p ∧
        (standard.withLimit (some 2)).evaluate multiples = .error (.fault ⟨.depth 2, p⟩) := by
  have h : (standard.withLimit none).evaluate multiples = .ok (.number 9.0) := rfl
  have hthree := limit_exact standard multiples _ 3 standard_primitive rfl h
  have htwo := limit_exact standard multiples _ 2 standard_primitive rfl h
  exact ⟨hthree.1.2 (by decide), htwo.2 (by decide)⟩

end Scope

end QuantityCalculus
