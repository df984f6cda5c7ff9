import QuantityCalculus.Call
import QuantityCalculus.Proofs.Outcome

/-!
The arguments of a call, as the functions of bare numbers evaluate them.
-/
namespace QuantityCalculus.Call

variable {call : Call}

theorem checkArity_eq_ok {arity : Arity} :
    call.checkArity arity = .ok () ↔ arity.admits call.arguments.length = true := by
  unfold checkArity
  split
  · simp [*]
  · simp [blame, *]

theorem checkArity_eq_error {arity : Arity} {stop : Stop} :
    call.checkArity arity = .error stop ↔ arity.admits call.arguments.length = false ∧
      stop = .fault ⟨.argumentCount call.name arity call.arguments.length, call.site⟩ := by
  unfold checkArity
  split
  · simp [*]
  · simp [blame, *]

/-- Every function checks the number of its arguments first. -/
theorem checkArity_bind_eq_ok {α : Type} {arity : Arity} {rest : Outcome α} {a : α} :
    (do call.checkArity arity; rest) = .ok a ↔
      arity.admits call.arguments.length = true ∧ rest = .ok a := by
  rw [Outcome.bind_eq_ok, ← checkArity_eq_ok]
  constructor
  · rintro ⟨⟨⟩, hc, hr⟩
    exact ⟨hc, hr⟩
  · rintro ⟨hc, hr⟩
    exact ⟨(), hc, hr⟩

theorem checkArity_bind_eq_error {α : Type} {arity : Arity} {rest : Outcome α} {stop : Stop} :
    (do call.checkArity arity; rest) = .error stop ↔
      (arity.admits call.arguments.length = false ∧
        stop = .fault ⟨.argumentCount call.name arity call.arguments.length, call.site⟩) ∨
      (arity.admits call.arguments.length = true ∧ rest = .error stop) := by
  rw [Outcome.bind_eq_error, ← checkArity_eq_ok, ← checkArity_eq_error]
  refine or_congr_right ⟨?_, ?_⟩
  · rintro ⟨⟨⟩, hc, hr⟩
    exact ⟨hc, hr⟩
  · rintro ⟨hc, hr⟩
    exact ⟨(), hc, hr⟩

theorem bareNumber_eq_ok {a : Argument} {x : Float} :
    call.bareNumber a = .ok x ↔ call.valueOf a = .ok (.number x) := by
  rw [bareNumber, Outcome.bind_eq_ok]
  constructor
  · rintro ⟨v, hv, h⟩
    cases v <;> simp at h
    rw [hv, h]
  · intro h
    exact ⟨_, h, rfl⟩

theorem bareNumber_eq_error {a : Argument} {stop : Stop} :
    call.bareNumber a = .error stop ↔ call.valueOf a = .error stop ∨
      ∃ v, call.valueOf a = .ok v ∧ v.number? = none ∧
        stop = .fault ⟨.numbersOnly call.name, a.tree⟩ := by
  rw [bareNumber, Outcome.bind_eq_error]
  refine or_congr_right (exists_congr fun v => and_congr_right fun _ => ?_)
  cases v <;> simp [Value.number?]

theorem numbers_eq_ok {xs : List Float} :
    call.numbers = .ok xs ↔
      List.Forall₂ (fun a x => call.valueOf a = .ok (.number x)) call.arguments xs := by
  simp only [numbers, Outcome.mapM_eq_ok, bareNumber_eq_ok]

theorem numbers_eq_error {stop : Stop} :
    call.numbers = .error stop ↔ ∃ before a after, call.arguments = before ++ a :: after ∧
      (∀ b ∈ before, ∃ x, call.valueOf b = .ok (.number x)) ∧ (call.valueOf a = .error stop ∨
        ∃ v, call.valueOf a = .ok v ∧ v.number? = none ∧
          stop = .fault ⟨.numbersOnly call.name, a.tree⟩) := by
  simp only [numbers, Outcome.mapM_eq_error, bareNumber_eq_ok, bareNumber_eq_error]

/-- A fault of the call or of one of its arguments, other than that of an operator without a rule
for its operands. -/
def Blames (call : Call) : Stop → Prop
  | .fault f => (f.site = call.site ∨ ∃ a ∈ call.arguments, f.site = a.tree) ∧
      ∀ operator left right, f.cause ≠ .operandKinds operator left right
  | .defect _ => False

theorem site_of_index (call : Call) (index : Nat) :
    (call.arguments[index]?.map Argument.tree).getD call.site = call.site ∨
      ∃ a ∈ call.arguments, (call.arguments[index]?.map Argument.tree).getD call.site = a.tree := by
  cases h : call.arguments[index]? with
  | none => exact .inl rfl
  | some a => exact .inr ⟨a, List.mem_of_getElem? h, rfl⟩

theorem blameArgument_ends {α : Type} {P : α → Prop} {index : Nat} {cause : Cause}
    (h : ∀ operator left right, cause ≠ .operandKinds operator left right) :
    (call.blameArgument index cause : Outcome α).Ends P call.Blames :=
  Outcome.ends_blame ⟨call.site_of_index index, h⟩

end QuantityCalculus.Call
