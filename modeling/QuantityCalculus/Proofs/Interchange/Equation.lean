import QuantityCalculus.Interchange.Equation
import QuantityCalculus.Proofs.Equation.Parts
import QuantityCalculus.Proofs.Interchange.Datum
import QuantityCalculus.Proofs.Lists

/-!
An equation is read back from its document as it was written. The tags of the nodes differ, and what
follows a tag is found under its name.
-/
namespace QuantityCalculus

open Datum

@[simp] theorem Sign.named?_name (operator : Sign) :
    named? Sign.all Sign.name operator.name = some operator :=
  named?_eq_some (by decide) (by cases operator <;> decide)

@[simp] theorem BinaryOperator.named?_name (operator : BinaryOperator) :
    named? BinaryOperator.all BinaryOperator.name operator.name = some operator :=
  named?_eq_some (by decide) (by cases operator <;> decide)

@[simp] theorem Relation.named?_name (relation : Relation) :
    named? Relation.all Relation.name relation.name = some relation :=
  named?_eq_some (by decide) (by cases relation <;> decide)

namespace Unreadable

/-- The positions of the token can be written down. -/
def Exchangeable (token : Unreadable) : Prop :=
  IsSize token.start ∧ IsSize token.stop

instance (token : Unreadable) : Decidable token.Exchangeable :=
  inferInstanceAs (Decidable (_ ∧ _))

theorem ofDatum?_toDatum {token : Unreadable} (h : token.Exchangeable) :
    ofDatum? token.toDatum = some token := by
  simp [ofDatum?, ofParts?, toDatum, fields, h.1, h.2]

end Unreadable

namespace Equation

section Tagged

variable (layout : List String) (tag : String) (fields : List (String × Datum))

@[simp] theorem tag?_tagged (inner : Bool) : tag? inner (tagged tag fields) = some tag := by
  simp [tag?, tagged, tagName?]

@[simp] theorem fits_tagged : (tagged tag fields).fits layout = true :=
  rfl

@[simp] theorem part?_tagged {name : String} (h : name ≠ "type") :
    part? layout name (tagged tag fields) =
      (fieldIn? name fields).map fun c =>
        ⟨c.val, Nat.lt_trans c.property
          (by simp only [tagged.eq_def, record.sizeOf_spec, List.cons.sizeOf_spec]; omega)⟩ := by
  refine (part?_record layout name (("type", .text tag) :: fields)).trans ?_
  rw [fieldIn?_cons, if_neg (Ne.symm h), Option.map_map]
  rfl

end Tagged

theorem listToData_eq_map (trees : List Equation) : listToData trees = trees.map toDatum := by
  induction trees with
  | nil => rfl
  | cons tree rest ih => rw [listToData, ih, List.map_cons]

theorem rowsToData_eq_map (rows : List (List Equation)) :
    rowsToData rows = rows.map fun row => .list (row.map toDatum) := by
  induction rows with
  | nil => rfl
  | cons row rest ih => rw [rowsToData, listToData_eq_map, ih, List.map_cons]

def rowOfDatum? (row : Datum) : Option (List Equation) := do
  let cells ← row.items?
  cells.mapM fun ⟨c, _⟩ => ofNode? true c

section Nodes

/-! Nodes with lists below them, and the token, whose fields stand beside the tag. -/

variable (inner : Bool)

theorem ofNode?_function (name : Datum) (items : List Datum) :
    ofNode? inner (tagged "function" [("name", name), ("args", .list items)]) =
      (do return .call (← name.text?) (← items.mapM (ofNode? true))) := by
  rw [ofNode?]
  simp [layout?]

theorem ofNode?_matrix (rows : List Datum) :
    ofNode? inner (tagged "matrix" [("values", .list rows)]) =
      (do return .matrix (← rows.mapM rowOfDatum?)) := by
  rw [ofNode?]
  unfold rowOfDatum?
  simp [layout?]

theorem ofNode?_functionPlaceholder (items : List Datum) :
    ofNode? inner (tagged "function-placeholder" [("args", .list items)]) =
      (do return .missingFunction (← items.mapM (ofNode? true))) := by
  rw [ofNode?]
  simp [layout?]

theorem ofNode?_parserError (reason start stop : Datum) :
    ofNode? inner
        (tagged "parser-error" [("errorType", reason), ("start", start), ("end", stop)]) =
      (do return .unreadable ⟨← reason.text?, ← start.size?, ← stop.size?⟩) := by
  rw [ofNode?]
  simp [layout?, Unreadable.ofParts?, Option.bind_assoc]

end Nodes

theorem rowOfDatum?_list {row : List Equation} (h : ∀ p ∈ row, ofNode? true p.toDatum = some p) :
    rowOfDatum? (.list (row.map toDatum)) = some row := by
  have hrow : (row.map toDatum).mapM (ofNode? true) = some row := Lists.mapM_map_eq_self h
  simpa [rowOfDatum?] using hrow

/-- The numbers of the equation and the positions of its tokens can be written down. -/
structure Exchangeable (e : Equation) : Prop where
  numbers : ∀ x, (Equation.number x).Within e → x.isFinite = true
  tokens : ∀ token, (Equation.unreadable token).Within e → token.Exchangeable

theorem Exchangeable.part {e p : Equation} (h : e.Exchangeable) (hp : p ∈ e.parts) :
    p.Exchangeable where
  numbers x hx := h.numbers x (hx.trans (within_of_mem_parts hp))
  tokens token ht := h.tokens token (ht.trans (within_of_mem_parts hp))

theorem ofNode?_toDatum {e : Equation} (h : e.Exchangeable) (inner : Bool) :
    ofNode? inner e.toDatum = some e := by
  induction e using parts_induction generalizing inner with
  | step e ih =>
    have hpart (p : Equation) (hp : p ∈ e.parts) : ofNode? true p.toDatum = some p :=
      ih p hp (h.part hp) true
    cases e with
    | number x =>
      rw [toDatum, ofNode?]
      show (do return Equation.number (← (ofFloat x).float?)) = _
      rw [float?_ofFloat (h.numbers x (.refl _))]
      rfl
    | reference name =>
      rw [toDatum, ofNode?]
      rfl
    | block a =>
      rw [toDatum, ofNode?]
      show (do return Equation.block (← ofNode? true a.toDatum)) = _
      rw [hpart a (by simp [parts])]
      rfl
    | signed operator a =>
      rw [toDatum, ofNode?]
      show (do
        let operator ← named? Sign.all Sign.name operator.name
        return Equation.signed operator (← ofNode? true a.toDatum)) = _
      rw [Sign.named?_name, hpart a (by simp [parts])]
      rfl
    | binary operator a b =>
      rw [toDatum, ofNode?]
      show (do
        let operator ← named? BinaryOperator.all BinaryOperator.name operator.name
        return Equation.binary operator (← ofNode? true a.toDatum) (← ofNode? true b.toDatum)) = _
      rw [BinaryOperator.named?_name, hpart a (by simp [parts]), hpart b (by simp [parts])]
      rfl
    | comparison relation a b =>
      rw [toDatum, ofNode?]
      show (do
        let relation ← named? Relation.all Relation.name relation.name
        return Equation.comparison relation (← ofNode? true a.toDatum)
          (← ofNode? true b.toDatum)) = _
      rw [Relation.named?_name, hpart a (by simp [parts]), hpart b (by simp [parts])]
      rfl
    | call name arguments =>
      have harguments : (arguments.map toDatum).mapM (ofNode? true) = some arguments :=
        Lists.mapM_map_eq_self hpart
      rw [toDatum, listToData_eq_map, ofNode?_function, text?_text, harguments]
      rfl
    | matrix rows =>
      have hrow (row : List Equation) (hr : row ∈ rows) :
          rowOfDatum? (.list (row.map toDatum)) = some row :=
        rowOfDatum?_list fun p hp => hpart p (List.mem_flatten_of_mem hr hp)
      rw [toDatum, rowsToData_eq_map, ofNode?_matrix, Lists.mapM_map_eq_self hrow]
      rfl
    | missingOperand =>
      rw [toDatum, ofNode?]
      rfl
    | missingOperator a b =>
      rw [toDatum, ofNode?]
      show (do
        return Equation.missingOperator (← ofNode? true a.toDatum) (← ofNode? true b.toDatum)) = _
      rw [hpart a (by simp [parts]), hpart b (by simp [parts])]
      rfl
    | missingSign a =>
      rw [toDatum, ofNode?]
      show (do return Equation.missingSign (← ofNode? true a.toDatum)) = _
      rw [hpart a (by simp [parts])]
      rfl
    | missingFunction arguments =>
      have harguments : (arguments.map toDatum).mapM (ofNode? true) = some arguments :=
        Lists.mapM_map_eq_self hpart
      rw [toDatum, listToData_eq_map, ofNode?_functionPlaceholder, harguments]
      rfl
    | unreadable token =>
      have ht := h.tokens token (.refl _)
      rw [toDatum, Unreadable.fields, ofNode?_parserError, text?_text, size?_ofSize ht.1,
        size?_ofSize ht.2]
      rfl

theorem ofDatum?_toDatum {e : Equation} (h : e.Exchangeable) : ofDatum? e.toDatum = some e :=
  ofNode?_toDatum h false

end Equation

end QuantityCalculus
