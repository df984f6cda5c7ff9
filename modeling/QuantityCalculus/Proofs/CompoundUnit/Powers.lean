import QuantityCalculus.Proofs.CompoundUnit.Pointwise

/-!
Products of listed integer powers. A unit that takes up one power after the other holds, for every
symbol, the sum of the exponents listed so far, as long as these sums fit in a word.
-/
namespace QuantityCalculus

namespace CompoundUnit

variable {u v : CompoundUnit} {powers : List (String × Int)} {symbol : String} {n : Int}

/-- The sum of the exponents that are listed for a symbol. -/
def total (symbol : String) (powers : List (String × Int)) : Int :=
  ((powers.filter fun power => power.1 = symbol).map Prod.snd).sum

@[simp] theorem total_nil (symbol : String) : total symbol [] = 0 :=
  rfl

theorem total_append (symbol : String) (powers others : List (String × Int)) :
    total symbol (powers ++ others) = total symbol powers + total symbol others := by
  simp [total]

theorem total_cons (other : String) :
    total other ((symbol, n) :: powers) =
      (if symbol = other then n else 0) + total other powers := by
  by_cases h : symbol = other <;> simp [total, h]

theorem total_concat (other : String) :
    total other (powers ++ [(symbol, n)]) =
      total other powers + if symbol = other then n else 0 := by
  rw [total_append, total_cons, total_nil, add_zero]

/-- The canonical unit whose exponents are the sums of the listed ones. -/
structure IsProduct (u : CompoundUnit) (powers : List (String × Int)) : Prop where
  canonical : u.Canonical
  exponent_eq : ∀ symbol, u.exponent symbol = .ofInt (total symbol powers)

theorem isProduct_dimensionless : dimensionless.IsProduct [] :=
  ⟨canonical_dimensionless, fun _ => rfl⟩

theorem IsProduct.eq (hu : u.IsProduct powers) (hv : v.IsProduct powers) : u = v := by
  apply hu.canonical.ext hv.canonical
  intro symbol
  rw [hu.exponent_eq, hv.exponent_eq]

theorem IsProduct.set (h : u.IsProduct powers) (symbol : String) (n : Int) :
    (u.set symbol (.ofInt (total symbol powers + n))).IsProduct (powers ++ [(symbol, n)]) := by
  refine ⟨h.canonical.set (Exponent.reduced_ofInt _), ?_⟩
  intro other
  rw [exponent_set, total_concat]
  by_cases ho : other = symbol
  · subst ho
    rw [if_pos rfl, if_pos rfl]
    split
    · rename_i hzero
      exact ((Exponent.reduced_ofInt _).eq_zero hzero).symm
    · rfl
  · rw [if_neg ho, if_neg (Ne.symm ho), add_zero, h.exponent_eq]

theorem IsProduct.accumulate?_eq (h : u.IsProduct powers) (htotal : InWord (total symbol powers))
    (hn : InWord n) :
    u.accumulate? symbol (.ofInt n) =
      (inWord? (total symbol powers + n)).map fun sum => u.set symbol (.ofInt sum) := by
  rw [accumulate?, h.exponent_eq, Exponent.add?, Exponent.overCommon?_ofInt htotal hn,
    Option.map_map]
  rfl

/-- No sum of the exponents of one symbol leaves the range on the way through the list. -/
def Summable (powers : List (String × Int)) : Prop :=
  ∀ first, first <+: powers → ∀ symbol, InWord (total symbol first)

theorem summable_nil : Summable [] := by
  intro first h symbol
  rw [List.prefix_nil.1 h, total_nil]
  decide

theorem Summable.total (h : Summable powers) (symbol : String) :
    InWord (total symbol powers) :=
  h powers List.prefix_rfl symbol

theorem summable_concat :
    Summable (powers ++ [(symbol, n)]) ↔ Summable powers ∧ InWord (total symbol powers + n) := by
  constructor
  · intro h
    refine ⟨fun first hfirst => h first (hfirst.trans (List.prefix_append _ _)), ?_⟩
    have hlast := h.total symbol
    rwa [total_concat, if_pos rfl] at hlast
  · rintro ⟨h, hlast⟩ first hfirst other
    rcases List.prefix_concat_iff.1 hfirst with rfl | hfirst
    · rw [total_concat]
      split
      · rename_i heq
        exact heq ▸ hlast
      · rw [add_zero]
        exact h.total other
    · exact h first hfirst other

end CompoundUnit

end QuantityCalculus
