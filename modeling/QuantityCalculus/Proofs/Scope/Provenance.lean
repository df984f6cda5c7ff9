import QuantityCalculus.Evaluation

/-!
What the functions of a scope are made of. A defined function holds the scope of its definition,
so a statement about every function that an evaluation can come to speaks of the functions of the
scope, of those in the scopes that they hold, and so on.
-/
namespace QuantityCalculus

/-- The last of the values bound to a name, or else what was bound before. -/
theorem Bindings.find?_insertAll {α : Type} (b : Bindings α) (pairs : List (String × α))
    {name : String} {a : α} (h : (b.insertAll pairs).find? name = some a) :
    a ∈ pairs.map Prod.snd ∨ b.find? name = some a := by
  induction pairs generalizing b with
  | nil => exact .inr h
  | cons first rest ih =>
    obtain ⟨bound, c⟩ := first
    rw [Bindings.insertAll_cons] at h
    rcases ih _ h with hr | hb
    · exact .inl (List.mem_cons_of_mem _ hr)
    · rw [Bindings.find?_insert] at hb
      split at hb
      · obtain rfl := Option.some.inj hb
        exact .inl (by simp)
      · exact .inr hb

/-- A built-in function, a function of bare numbers that `numeric` admits, or a defined function
whose scope holds values that `good` admits and, in turn, such functions. -/
inductive Callable.BuiltFrom (numeric : NumericFunction → Prop) (good : Value → Prop) :
    Callable → Prop where
  | builtin (b : Builtin) : BuiltFrom numeric good (.builtin b)
  | numeric {f : NumericFunction} (h : numeric f) : BuiltFrom numeric good (.numeric f)
  | defined {parameters : List String} {body : Equation} {captured : Scope}
      (values : ∀ name v, captured.value? name = some v → good v)
      (functions : ∀ name f, captured.function? name = some f → BuiltFrom numeric good f) :
      BuiltFrom numeric good (.defined parameters body captured)

namespace Scope

structure BuiltFrom (numeric : NumericFunction → Prop) (good : Value → Prop) (s : Scope) :
    Prop where
  values : ∀ name v, s.value? name = some v → good v
  functions : ∀ name f, s.function? name = some f → f.BuiltFrom numeric good

/-- The functions that an evaluation in the scope can come to. -/
inductive Reaches (s : Scope) : Callable → Prop where
  | bound {name : String} {f : Callable} (h : s.function? name = some f) : Reaches s f
  | captured {parameters : List String} {body : Equation} {captured : Scope} {name : String}
      {f : Callable} (h : Reaches s (.defined parameters body captured))
      (hf : captured.function? name = some f) : Reaches s f

variable {numeric : NumericFunction → Prop} {good : Value → Prop} {s t : Scope}

theorem BuiltFrom.captured {parameters : List String} {body : Equation} {captured : Scope}
    (h : (Callable.defined parameters body captured).BuiltFrom numeric good) :
    captured.BuiltFrom numeric good := by
  cases h with
  | defined values functions => exact ⟨values, functions⟩

theorem BuiltFrom.not_hosted {name : String} {run : Call → Outcome Value}
    (h : s.BuiltFrom numeric good) : s.function? name ≠ some (.hosted run) := by
  intro hf
  cases h.functions name _ hf

/-- Only the values that the functions see count, not the depth or its limit. -/
theorem BuiltFrom.congr (h : s.BuiltFrom numeric good) (hv : t.values = s.values)
    (hf : t.functions = s.functions) : t.BuiltFrom numeric good := by
  constructor
  · intro name v hn
    rw [value?, hv] at hn
    exact h.values name v hn
  · intro name f hn
    rw [function?, hf] at hn
    exact h.functions name f hn

theorem BuiltFrom.bindValue (h : s.BuiltFrom numeric good) (name : String) {v : Value}
    (hv : good v) : (s.bindValue name v).BuiltFrom numeric good := by
  constructor
  · intro other w hw
    simp only [Scope.bindValue, value?, Bindings.find?_insert] at hw
    split at hw
    · exact Option.some.inj hw ▸ hv
    · exact h.values other w hw
  · exact h.functions

theorem builtFrom_ofList {values : List (String × Value)} {functions : List (String × Callable)}
    {limit : Option Nat} {depth : Nat} (hv : ∀ pair ∈ values, good pair.2)
    (hf : ∀ pair ∈ functions, pair.2.BuiltFrom numeric good) :
    (⟨.ofList values, .ofList functions, limit, depth⟩ : Scope).BuiltFrom numeric good := by
  constructor
  · intro name v hn
    rcases Bindings.find?_insertAll .empty values hn with hm | hn
    · obtain ⟨pair, hp, rfl⟩ := List.mem_map.1 hm
      exact hv pair hp
    · cases hn
  · intro name f hn
    rcases Bindings.find?_insertAll .empty functions hn with hm | hn
    · obtain ⟨pair, hp, rfl⟩ := List.mem_map.1 hm
      exact hf pair hp
    · cases hn

/-- An evaluation in the scope cannot come to a function of the host. -/
def Unhosted (s : Scope) : Prop :=
  s.BuiltFrom (fun _ => True) (fun _ => True)

theorem Unhosted.congr (h : s.Unhosted) (hf : t.functions = s.functions) : t.Unhosted := by
  constructor
  · intro _ _ _
    trivial
  · intro name f hn
    rw [function?, hf] at hn
    exact h.functions name f hn

theorem Unhosted.captured (h : s.Unhosted) {name : String} {parameters : List String}
    {body : Equation} {captured : Scope}
    (hf : s.function? name = some (.defined parameters body captured)) : captured.Unhosted :=
  BuiltFrom.captured (h.functions name _ hf)

/-- A length, sums, and a function that divides. -/
def sample : Scope :=
  ⟨.ofList [("length", .measured (.base "m") (.number 6.0))],
    .ofList [("sum", .builtin .sum),
      ("share", .defined ["x", "n"] (.binary .fraction (.reference "x") (.reference "n")) .empty)],
    some 8, 0⟩

/-- The whole length and half of it. -/
def sampleSum : Equation :=
  .call "sum" [.reference "i", .number 1.0, .number 2.0,
    .call "share" [.reference "length", .reference "i"]]

theorem evaluate_sampleSum :
    sample.evaluate sampleSum = .ok (.measured (.base "m") (.number 9.0)) :=
  rfl

theorem sample_builtFrom (h : good (.measured (.base "m") (.number 6.0))) :
    sample.BuiltFrom numeric good := by
  apply builtFrom_ofList
  · simpa using h
  · have hshare : (Callable.defined ["x", "n"] (.binary .fraction (.reference "x")
        (.reference "n")) .empty).BuiltFrom numeric good :=
      .defined (fun _ _ hn => by cases hn) fun _ _ hn => by cases hn
    simpa using ⟨.builtin .sum, hshare⟩

/-- An area, sums and roots. -/
def rootSample : Scope :=
  ⟨.ofList [("area", .measured ⟨[("m", .ofInt 2)]⟩ (.number 9.0))],
    .ofList [("sum", .builtin .sum), ("sqrt", .builtin .sqrt), ("root", .builtin .root)], none, 0⟩

theorem rootSample_builtFrom (h : good (.measured ⟨[("m", .ofInt 2)]⟩ (.number 9.0))) :
    rootSample.BuiltFrom numeric good := by
  apply builtFrom_ofList
  · simpa using h
  · simpa using ⟨.builtin .sum, .builtin .sqrt, .builtin .root⟩

end Scope

end QuantityCalculus
