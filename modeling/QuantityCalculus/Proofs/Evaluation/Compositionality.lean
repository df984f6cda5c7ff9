import QuantityCalculus.Proofs.Evaluation.Correspondence

/-!
Compositionality. Trees that no scope tells apart may stand for each other in any place but one:
a sum looks at its first argument as it stands.
-/
namespace QuantityCalculus

namespace Equation

/-- One level of a tree with a hole for one of the parts. -/
inductive Frame where
  | block
  | signed (operator : Sign)
  | leftOperand (operator : BinaryOperator) (right : Equation)
  | rightOperand (operator : BinaryOperator) (left : Equation)
  | leftSide (relation : Relation) (right : Equation)
  | rightSide (relation : Relation) (left : Equation)
  | argument (name : String) (before after : List Equation)
  | cell (above : List (List Equation)) (before after : List Equation)
      (below : List (List Equation))
  | beforeMissing (right : Equation)
  | afterMissing (left : Equation)
  | missingSign
  | missingFunction (before after : List Equation)

def Frame.fill : Frame → Equation → Equation
  | .block, e => .block e
  | .signed operator, e => .signed operator e
  | .leftOperand operator right, e => .binary operator e right
  | .rightOperand operator left, e => .binary operator left e
  | .leftSide relation right, e => .comparison relation e right
  | .rightSide relation left, e => .comparison relation left e
  | .argument name before after, e => .call name (before ++ e :: after)
  | .cell above before after below, e => .matrix (above ++ (before ++ e :: after) :: below)
  | .beforeMissing right, e => .missingOperator e right
  | .afterMissing left, e => .missingOperator left e
  | .missingSign, e => .missingSign e
  | .missingFunction before after, e => .missingFunction (before ++ e :: after)

/-- The hole is the first of four arguments. -/
def Frame.IsHead : Frame → Prop
  | .argument _ [] after => after.length = 3
  | _ => False

/-- The tree in the hole of a context, whose frames are given from the inside out. -/
def plug : List Frame → Equation → Equation
  | [], e => e
  | frame :: outer, e => plug outer (frame.fill e)

variable {p q : Equation}

theorem SameHead.refl (e : Equation) : e.SameHead e :=
  ⟨rfl, fun _ => .rfl⟩

/-- A filled frame is no variable, and its root is that of the frame. -/
theorem sameHead_fill (frame : Frame) (p q : Equation) :
    (frame.fill p).SameHead (frame.fill q) := by
  constructor
  · cases frame <;> rfl
  · intro index
    cases frame <;> simp [Frame.fill]

theorem sameHead_of_fill {frame : Frame} (h : frame.IsHead → p.SameHead q) {name : String}
    {head head' : Equation} {rest rest' : List Equation}
    (hp : frame.fill p = .call name (head :: rest))
    (hq : frame.fill q = .call name (head' :: rest')) (hlen : rest.length = 3) :
    head.SameHead head' := by
  cases frame with
  | argument called before after =>
    obtain ⟨-, hp⟩ := call.inj hp
    obtain ⟨-, hq⟩ := call.inj hq
    cases before with
    | nil =>
      obtain ⟨rfl, rfl⟩ := List.cons.inj hp
      obtain ⟨rfl, -⟩ := List.cons.inj hq
      exact h hlen
    | cons first before =>
      obtain ⟨rfl, -⟩ := List.cons.inj hp
      obtain ⟨rfl, -⟩ := List.cons.inj hq
      exact .refl _
  | _ => cases hp

theorem corresponds_fill {R : Equation → Equation → Prop} (hr : ∀ e, R e e) (frame : Frame)
    (h : R p q) : (frame.fill p).Corresponds R (frame.fill q) := by
  cases frame with
  | block => exact .block h
  | signed operator => exact .signed operator h
  | leftOperand operator right => exact .binary operator h (hr right)
  | rightOperand operator left => exact .binary operator (hr left) h
  | leftSide relation right => exact .comparison relation h (hr right)
  | rightSide relation left => exact .comparison relation (hr left) h
  | argument name before after => exact .call name (Lists.forall₂_replace hr h before after)
  | cell above before after below =>
    have hrow : List.Forall₂ R (before ++ p :: after) (before ++ q :: after) :=
      Lists.forall₂_replace hr h before after
    have hrows (row : List Equation) : List.Forall₂ R row row := List.forall₂_same.2 fun e _ => hr e
    exact .matrix (Lists.forall₂_replace hrows hrow above below)
  | beforeMissing right => exact .missingOperator h (hr right)
  | afterMissing left => exact .missingOperator (hr left) h
  | missingSign => exact .missingSign h
  | missingFunction before after => exact .missingFunction (Lists.forall₂_replace hr h before after)

/-- No scope tells the trees apart by their values or by the kinds of their faults. -/
def Equivalent {γ : Type} (kind : Cause → γ) (p q : Equation) : Prop :=
  ∀ s : Scope, s.Unhosted → s.limit = none → (s.evaluate p).Akin kind (s.evaluate q)

variable {γ : Type} {kind : Cause → γ}

theorem Equivalent.refl (e : Equation) : e.Equivalent kind e :=
  fun _ _ _ => .refl _

theorem Equivalent.fill (h : p.Equivalent kind q) (frame : Frame)
    (hole : frame.IsHead → p.SameHead q) : (frame.fill p).Equivalent kind (frame.fill q) := by
  intro s hs hl
  apply Scope.evaluate_akin hs hs hl hl (corresponds_fill .refl frame h)
  · intro name _
    rfl
  · intro name arguments _
    rfl
  · intro a b hab
    exact hab s hs hl
  · intro name arguments a b index i _ _ hab
    exact hab (s.atIndex index i) (hs.congr rfl) hl
  · intro name head head' rest rest' hp hq _ hlen
    exact sameHead_of_fill hole hp hq hlen

/-- Only the innermost frame can have the hole itself for the first argument of a sum; the frames
around it have a filled frame there. -/
theorem Equivalent.plug (h : p.Equivalent kind q) (frames : List Frame)
    (hole : ∀ frame ∈ frames.head?, frame.IsHead → p.SameHead q) :
    (plug frames p).Equivalent kind (plug frames q) := by
  induction frames generalizing p q with
  | nil => exact h
  | cons frame outer ih =>
    exact ih (h.fill frame (hole frame rfl)) fun _ _ _ => sameHead_fill frame p q

theorem block_equivalent (e : Equation) : (Equation.block e).Equivalent kind e := by
  intro s hs hl
  rw [Scope.evaluate_eq_node hl, ← Scope.evaluate_deeper hs hl e]
  exact .refl _

theorem positive_equivalent (e : Equation) : (Equation.signed .positive e).Equivalent kind e := by
  intro s hs hl
  rw [Scope.evaluate_eq_node hl, ← Scope.evaluate_deeper hs hl e]
  exact .refl _

end Equation

namespace Scope

/-- Equivalent trees may stand for each other in every context whose hole is not the first of four
arguments, whatever counts as the kind of a fault. So neither parentheses nor a plus sign around a
tree in such a place change a value or the kind of a fault. -/
theorem evaluation_compositional {γ : Type} (kind : Cause → γ) (frames : List Equation.Frame)
    (hole : ∀ frame ∈ frames.head?, ¬ frame.IsHead) :
    (∀ p q : Equation, p.Equivalent kind q →
      (Equation.plug frames p).Equivalent kind (Equation.plug frames q)) ∧
    ∀ e : Equation,
      (Equation.plug frames (.block e)).Equivalent kind (Equation.plug frames e) ∧
      (Equation.plug frames (.signed .positive e)).Equivalent kind (Equation.plug frames e) := by
  have hplug {p q : Equation} (h : p.Equivalent kind q) :
      (Equation.plug frames p).Equivalent kind (Equation.plug frames q) :=
    h.plug frames fun frame hf hhead => absurd hhead (hole frame hf)
  refine ⟨fun p q h => hplug h, fun e => ⟨?_, ?_⟩⟩
  · exact hplug e.block_equivalent
  · exact hplug e.positive_equivalent

/-- With parentheses around its variable a sum is refused. -/
example {γ : Type} (kind : Cause → γ) :
    ¬ (Equation.plug [.argument "sum" [] [.number 1.0, .number 2.0, .reference "i"]]
        (.block (.reference "i"))).Equivalent kind
      (Equation.plug [.argument "sum" [] [.number 1.0, .number 2.0, .reference "i"]]
        (.reference "i")) := by
  intro h
  have hs : (sample.withLimit none).Unhosted := (sample_builtFrom trivial).congr rfl rfl
  have hakin := h (sample.withLimit none) hs rfl
  have hrefused : (sample.withLimit none).evaluate (.call "sum"
      [.block (.reference "i"), .number 1.0, .number 2.0, .reference "i"]) =
        Outcome.blame (.block (.reference "i")) (.seriesVariable "sum" "block") :=
    rfl
  have hthree : (sample.withLimit none).evaluate (.call "sum"
      [.reference "i", .number 1.0, .number 2.0, .reference "i"]) = .ok (.number 3.0) :=
    rfl
  simp only [Equation.plug, Equation.Frame.fill, List.nil_append, hrefused, hthree] at hakin
  cases hakin

/-- The divisor in the term of the sum of the sample. -/
def sampleFrames : List Equation.Frame :=
  [.argument "share" [.reference "length"] [],
    .argument "sum" [.reference "i", .number 1.0, .number 2.0] []]

theorem evaluation_compositional_sample :
    Equation.plug sampleFrames (.reference "i") = sampleSum ∧
      (Equation.plug sampleFrames (.block (.reference "i"))).Equivalent id sampleSum := by
  have hole : ∀ frame ∈ sampleFrames.head?, ¬ frame.IsHead := by
    simp [sampleFrames, Equation.Frame.IsHead]
  have h := (evaluation_compositional id sampleFrames hole).2 (.reference "i")
  exact ⟨rfl, h.1⟩

end Scope

end QuantityCalculus
