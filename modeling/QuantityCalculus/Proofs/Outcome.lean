import QuantityCalculus.Fault.Basic
import QuantityCalculus.Proofs.Lists

/-!
Outcomes of a computation taken apart: from which steps a value or a stop came.
-/
namespace QuantityCalculus.Outcome

variable {α β : Type}

@[simp] theorem ok_bind {a : α} {f : α → Outcome β} : (.ok a : Outcome α) >>= f = f a :=
  rfl

@[simp] theorem error_bind {stop : Stop} {f : α → Outcome β} :
    (.error stop : Outcome α) >>= f = .error stop :=
  rfl

theorem bind_eq_ok {x : Outcome α} {f : α → Outcome β} {b : β} :
    x >>= f = .ok b ↔ ∃ a, x = .ok a ∧ f a = .ok b := by
  cases x with
  | error stop => simp [bind, Except.bind]
  | ok a => simp [bind, Except.bind]

theorem bind_eq_error {x : Outcome α} {f : α → Outcome β} {stop : Stop} :
    x >>= f = .error stop ↔ x = .error stop ∨ ∃ a, x = .ok a ∧ f a = .error stop := by
  cases x with
  | error stop => simp [bind, Except.bind]
  | ok a => simp [bind, Except.bind]

theorem map_eq_ok {x : Outcome α} {f : α → β} {b : β} :
    f <$> x = .ok b ↔ ∃ a, x = .ok a ∧ f a = b := by
  cases x with
  | error stop => simp [Functor.map, Except.map]
  | ok a => simp [Functor.map, Except.map]

theorem map_eq_error {x : Outcome α} {f : α → β} {stop : Stop} :
    f <$> x = .error stop ↔ x = .error stop := by
  cases x with
  | error stop => simp [Functor.map, Except.map]
  | ok a => simp [Functor.map, Except.map]

@[simp] theorem pure_eq_ok {a b : α} : (pure a : Outcome α) = .ok b ↔ a = b := by
  simp [pure, Except.pure]

@[simp] theorem pure_ne_error {a : α} {stop : Stop} : (pure a : Outcome α) ≠ .error stop := by
  simp [pure, Except.pure]

@[simp] theorem blame_ne_ok {site : Equation} {cause : Cause} {a : α} :
    (blame site cause : Outcome α) ≠ .ok a := by
  simp [blame]

@[simp] theorem blame_eq_error {site : Equation} {cause : Cause} {stop : Stop} :
    (blame site cause : Outcome α) = .error stop ↔ stop = .fault ⟨cause, site⟩ := by
  simp [blame, eq_comm]

@[simp] theorem expect_eq_ok {defect : Defect} {x : Option α} {a : α} :
    expect defect x = .ok a ↔ x = some a := by
  cases x <;> simp [expect]

@[simp] theorem expect_eq_error {defect : Defect} {x : Option α} {stop : Stop} :
    expect defect x = .error stop ↔ x = none ∧ stop = .defect defect := by
  cases x <;> simp [expect, eq_comm]

theorem mapM_eq_ok {f : α → Outcome β} {xs : List α} {ys : List β} :
    xs.mapM f = .ok ys ↔ List.Forall₂ (fun x y => f x = .ok y) xs ys := by
  induction xs generalizing ys with
  | nil => simp [pure, Except.pure, eq_comm]
  | cons x xs ih =>
    simp only [List.mapM_cons, bind_eq_ok, pure_eq_ok, ih, List.forall₂_cons_left_iff]
    constructor
    · rintro ⟨y, hy, rest, hrest, rfl⟩
      exact ⟨y, rest, hy, hrest, rfl⟩
    · rintro ⟨y, rest, hy, hrest, rfl⟩
      exact ⟨y, hy, rest, hrest, rfl⟩

/-- A list is worked off from left to right up to the first element that stops it. -/
theorem mapM_eq_error {f : α → Outcome β} {xs : List α} {stop : Stop} :
    xs.mapM f = .error stop ↔ ∃ before x after, xs = before ++ x :: after ∧
      (∀ z ∈ before, ∃ y, f z = .ok y) ∧ f x = .error stop := by
  induction xs with
  | nil => simp
  | cons x xs ih =>
    rw [List.mapM_cons, bind_eq_error]
    constructor
    · rintro (hx | ⟨y, hy, h⟩)
      · exact ⟨[], x, xs, rfl, by simp, hx⟩
      · rcases bind_eq_error.1 h with h | ⟨_, _, h⟩
        · obtain ⟨before, z, after, rfl, hb, hz⟩ := ih.1 h
          exact ⟨x :: before, z, after, rfl, by simpa using ⟨⟨y, hy⟩, hb⟩, hz⟩
        · simp at h
    · rintro ⟨before, z, after, h, hb, hz⟩
      cases before with
      | nil =>
        obtain ⟨rfl, rfl⟩ := List.cons.inj h
        exact .inl hz
      | cons w rest =>
        obtain ⟨rfl, rfl⟩ := List.cons.inj h
        obtain ⟨y, hy⟩ := hb x (by simp)
        refine .inr ⟨y, hy, bind_eq_error.2 (.inl (ih.2 ⟨rest, z, after, rfl, ?_, hz⟩))⟩
        intro w hw
        exact hb w (by simp [hw])

theorem mapM_flatten (f : α → Outcome β) (xss : List (List α)) :
    xss.flatten.mapM f = List.flatten <$> xss.mapM (List.mapM f) := by
  induction xss with
  | nil => rfl
  | cons xs xss ih =>
    simp only [List.flatten_cons, List.mapM_append, List.mapM_cons, ih, map_eq_pure_bind,
      bind_assoc, pure_bind]

/-- The value of the outcome has one property, or else its stop has the other. -/
def Ends (P : α → Prop) (Q : Stop → Prop) (x : Outcome α) : Prop :=
  (∀ a, x = .ok a → P a) ∧ ∀ stop, x = .error stop → Q stop

variable {P : α → Prop} {R : β → Prop} {Q : Stop → Prop}

theorem ends_ok {a : α} (h : P a) : Ends P Q (.ok a) := by
  constructor
  · intro b hb
    exact Except.ok.inj hb ▸ h
  · intro stop hs
    cases hs

theorem ends_blame {site : Equation} {cause : Cause} (h : Q (.fault ⟨cause, site⟩)) :
    Ends P Q (blame site cause) := by
  constructor
  · intro a ha
    exact absurd ha blame_ne_ok
  · intro stop hs
    exact blame_eq_error.1 hs ▸ h

theorem Ends.bind {x : Outcome α} {f : α → Outcome β} (hx : x.Ends P Q)
    (hf : ∀ a, P a → (f a).Ends R Q) : (x >>= f).Ends R Q := by
  constructor
  · intro b hb
    obtain ⟨a, ha, hb⟩ := bind_eq_ok.1 hb
    exact (hf a (hx.1 a ha)).1 b hb
  · intro stop hs
    rcases bind_eq_error.1 hs with hs | ⟨a, ha, hs⟩
    · exact hx.2 stop hs
    · exact (hf a (hx.1 a ha)).2 stop hs

theorem Ends.map {x : Outcome α} {f : α → β} (hx : x.Ends P Q) (hf : ∀ a, P a → R (f a)) :
    (f <$> x).Ends R Q := by
  constructor
  · intro b hb
    obtain ⟨a, ha, rfl⟩ := map_eq_ok.1 hb
    exact hf a (hx.1 a ha)
  · intro stop hs
    exact hx.2 stop (map_eq_error.1 hs)

/-- The outcomes are the same, unless the first is a stop of the given kind. -/
def AgreesUnless (Q : Stop → Prop) (x y : Outcome α) : Prop :=
  x = y ∨ ∃ stop, x = .error stop ∧ Q stop

theorem AgreesUnless.refl (x : Outcome α) : x.AgreesUnless Q x :=
  .inl rfl

theorem AgreesUnless.eq_ok {x y : Outcome α} (h : x.AgreesUnless Q y) {a : α} (hx : x = .ok a) :
    y = .ok a := by
  rcases h with rfl | ⟨stop, hs, -⟩
  · exact hx
  · cases hx.symm.trans hs

theorem AgreesUnless.mono {R : Stop → Prop} {x y : Outcome α} (h : x.AgreesUnless Q y)
    (hr : ∀ stop, Q stop → R stop) : x.AgreesUnless R y :=
  h.imp_right fun ⟨stop, hx, hs⟩ => ⟨stop, hx, hr stop hs⟩

theorem AgreesUnless.bind {x y : Outcome α} {f g : α → Outcome β} (hx : x.AgreesUnless Q y)
    (hf : ∀ a, x = .ok a → (f a).AgreesUnless Q (g a)) : (x >>= f).AgreesUnless Q (y >>= g) := by
  rcases hx with rfl | ⟨stop, rfl, hs⟩
  · cases x with
    | error stop => exact .refl _
    | ok a => exact hf a rfl
  · exact .inr ⟨stop, rfl, hs⟩

theorem AgreesUnless.map {x y : Outcome α} (hx : x.AgreesUnless Q y) (f : α → β) :
    (f <$> x).AgreesUnless Q (f <$> y) := by
  rcases hx with rfl | ⟨stop, rfl, hs⟩
  · exact .refl _
  · exact .inr ⟨stop, rfl, hs⟩

theorem mapM_agreesUnless {f g : α → Outcome β} {xs : List α}
    (h : ∀ x ∈ xs, (f x).AgreesUnless Q (g x)) : (xs.mapM f).AgreesUnless Q (xs.mapM g) := by
  induction xs with
  | nil => exact .refl _
  | cons x xs ih =>
    simp only [List.mapM_cons]
    refine (h x List.mem_cons_self).bind fun y _ => ?_
    refine (ih fun z hz => h z (List.mem_cons_of_mem _ hz)).bind fun ys _ => ?_
    exact .refl _

/-- One value, or one defect, or faults that stand in the relation. -/
inductive Parallel (R : Fault → Fault → Prop) : Outcome α → Outcome α → Prop where
  | value (a : α) : Parallel R (.ok a) (.ok a)
  | fault {f g : Fault} (h : R f g) : Parallel R (.error (.fault f)) (.error (.fault g))
  | defect (d : Defect) : Parallel R (.error (.defect d)) (.error (.defect d))

section Parallel

variable {R : Fault → Fault → Prop}

theorem Parallel.refl {x : Outcome α} (h : ∀ f, x = .error (.fault f) → R f f) :
    x.Parallel R x := by
  cases x with
  | ok a => exact .value a
  | error stop =>
    cases stop with
    | fault f => exact .fault (h f rfl)
    | defect d => exact .defect d

theorem Parallel.eq_ok_iff {x y : Outcome α} (h : x.Parallel R y) {a : α} :
    x = .ok a ↔ y = .ok a := by
  cases h with
  | value b => rfl
  | fault h => simp
  | defect d => simp

theorem expect_parallel (defect : Defect) (x : Option α) :
    (expect defect x).Parallel R (expect defect x) := by
  cases x with
  | none => exact .defect defect
  | some a => exact .value a

theorem Parallel.bind {x y : Outcome α} {f g : α → Outcome β} (h : x.Parallel R y)
    (hf : ∀ a, x = .ok a → (f a).Parallel R (g a)) : (x >>= f).Parallel R (y >>= g) := by
  cases h with
  | value a => exact hf a rfl
  | fault h => exact .fault h
  | defect d => exact .defect d

theorem Parallel.map {x y : Outcome α} (h : x.Parallel R y) (f : α → β) :
    (f <$> x).Parallel R (f <$> y) := by
  cases h with
  | value a => exact .value (f a)
  | fault h => exact .fault h
  | defect d => exact .defect d

theorem Parallel.ite {c : Prop} [Decidable c] {x y x' y' : Outcome α} (h : x.Parallel R x')
    (h' : y.Parallel R y') : (if c then x else y).Parallel R (if c then x' else y') := by
  split
  · exact h
  · exact h'

theorem mapM_parallel {γ : Type} {f : α → Outcome β} {g : γ → Outcome β} {xs : List α}
    {ys : List γ} (h : List.Forall₂ (fun x y => (f x).Parallel R (g y)) xs ys) :
    (xs.mapM f).Parallel R (ys.mapM g) := by
  induction h with
  | nil => exact .value []
  | cons hxy _ ih =>
    simp only [List.mapM_cons]
    exact hxy.bind fun a _ => ih.bind fun as _ => .value (a :: as)

end Parallel

/-- One value, or faults of one kind wherever the blame falls. What counts of a cause is `kind`. -/
inductive Akin {γ : Type} (kind : Cause → γ) : Outcome α → Outcome α → Prop where
  | value (a : α) : Akin kind (.ok a) (.ok a)
  | fault {c d : Cause} {p q : Equation} (h : kind c = kind d) :
      Akin kind (.error (.fault ⟨c, p⟩)) (.error (.fault ⟨d, q⟩))
  | defect (d : Defect) : Akin kind (.error (.defect d)) (.error (.defect d))

section Akin

variable {γ : Type} {kind : Cause → γ}

theorem Akin.refl (x : Outcome α) : x.Akin kind x := by
  cases x with
  | ok a => exact .value a
  | error stop =>
    cases stop with
    | fault f => exact .fault rfl
    | defect d => exact .defect d

theorem akin_iff_parallel {x y : Outcome α} :
    x.Akin kind y ↔ x.Parallel (fun f g => kind f.cause = kind g.cause) y := by
  constructor
  · intro h
    cases h with
    | value a => exact .value a
    | fault h => exact .fault h
    | defect d => exact .defect d
  · intro h
    cases h with
    | value a => exact .value a
    | fault h => exact .fault h
    | defect d => exact .defect d

end Akin

end QuantityCalculus.Outcome
