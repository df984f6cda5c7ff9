import QuantityCalculus.Interchange.Datum
import Mathlib.Data.List.Nodup

/-!
What plain data reads as once it is written: sizes, doubles and names, the fields of a record and
the items of a list.
-/
namespace QuantityCalculus.Datum

/-- A size fits in a 64-bit word. -/
def IsSize (n : Nat) : Prop :=
  n < 18446744073709551616

instance (n : Nat) : Decidable (IsSize n) :=
  inferInstanceAs (Decidable (_ < _))

theorem isSize_of_size? {d : Datum} {n : Nat} (h : d.size? = some n) : IsSize n := by
  unfold size? at h
  split at h
  · simp only [Option.ite_none_right_eq_some, Option.some.injEq] at h
    unfold IsSize
    omega
  · cases h

@[simp] theorem size?_ofSize {n : Nat} (h : IsSize n) : (ofSize n).size? = some n := by
  have hn : (0 : Int) ≤ n ∧ (n : Int) < 18446744073709551616 := by
    unfold IsSize at h
    omega
  rw [ofSize, size?, if_pos hn, Int.toNat_natCast]

@[simp] theorem optionalSize?_ofOptionalSize {size : Option Nat} (h : ∀ n ∈ size, IsSize n) :
    optionalSize? (some (ofOptionalSize size)) = some size := by
  cases size with
  | none => rfl
  | some n =>
    rw [ofOptionalSize, optionalSize?, size?_ofSize (h n rfl), Option.map_some]
    intro hn
    cases hn

@[simp] theorem float?_ofFloat {x : Float} (h : x.isFinite = true) : (ofFloat x).float? = some x := by
  rw [ofFloat, if_pos h, float?]

@[simp] theorem text?_text (s : String) : (text s).text? = some s :=
  rfl

section Names

variable {α : Type} {all : List α} {nameOf : α → String}

/-- Members of a list have names of their own, and so each is found under its name. -/
theorem named?_eq_some (hn : (all.map nameOf).Nodup) {a : α} (ha : a ∈ all) :
    named? all nameOf (nameOf a) = some a := by
  obtain ⟨b, hb⟩ : ∃ b, named? all nameOf (nameOf a) = some b := by
    rw [named?, ← Option.isSome_iff_exists, List.find?_isSome]
    exact ⟨a, ha, decide_eq_true rfl⟩
  have hname : nameOf b = nameOf a := of_decide_eq_true (List.find?_some hb :)
  rw [hb, List.inj_on_of_nodup_map hn (List.mem_of_find?_eq_some hb) ha hname]

@[simp] theorem choice?_text (name : String) :
    choice? all nameOf (.text name) = named? all nameOf name :=
  rfl

@[simp] theorem nodeChoice?_text (name : String) :
    nodeChoice? all nameOf (.text name) = named? all nameOf name :=
  rfl

end Names

section Fields

variable (layout : List String) (name : String)

theorem sizeOf_lt_cons (n : String) (c : Datum) (rest : List (String × Datum)) :
    sizeOf c < sizeOf ((n, c) :: rest) := by
  simp only [List.cons.sizeOf_spec, Prod.mk.sizeOf_spec]
  omega

@[simp] theorem fieldIn?_cons (n : String) (c : Datum) (rest : List (String × Datum)) :
    fieldIn? name ((n, c) :: rest) =
      if n = name then some ⟨c, sizeOf_lt_cons n c rest⟩
      else
        (fieldIn? name rest).map fun c =>
          ⟨c.val, Nat.lt_trans c.property (by simp only [List.cons.sizeOf_spec]; omega)⟩ :=
  rfl

@[simp] theorem part?_record (fields : List (String × Datum)) :
    part? layout name (.record fields) =
      (fieldIn? name fields).map fun c =>
        ⟨c.val, Nat.lt_trans c.property (by simp only [record.sizeOf_spec]; omega)⟩ :=
  rfl

end Fields

@[simp] theorem items?_list (items : List Datum) :
    (list items).items? = some (items.attach.map fun c =>
      ⟨c.val, Nat.lt_trans (List.sizeOf_lt_of_mem c.property)
        (by simp only [list.sizeOf_spec]; omega)⟩) :=
  rfl

/-- The items are parts of the list, but that is all that is added to them. -/
@[simp] theorem unattach_map_attach {p : Datum → Prop} (items : List Datum)
    (f : { c // c ∈ items } → Subtype p) (h : ∀ c, (f c).val = c.val) :
    (items.attach.map f).unattach = items :=
  calc (items.attach.map f).unattach
      = items.attach.map fun c => (f c).val := List.map_map
    _ = items.attach.map Subtype.val := List.map_congr_left fun c _ => h c
    _ = items := List.attach_map_subtype_val items

end QuantityCalculus.Datum
