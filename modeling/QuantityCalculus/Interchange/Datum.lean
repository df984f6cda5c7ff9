/-!
Documents: nested lists and records of plain data, as they are exchanged with other programs. A
record may also be written as the list of its fields in order.
-/
namespace QuantityCalculus

inductive Datum where
  | null
  | boolean (b : Bool)
  | integer (n : Int)
  | real (x : Float)
  | text (s : String)
  | list (items : List Datum)
  | record (fields : List (String × Datum))
  deriving Repr

namespace Datum

/-- A part of a datum, smaller than the whole. -/
abbrev Part (d : Datum) : Type :=
  { c : Datum // sizeOf c < sizeOf d }

def fieldIn? (name : String) :
    (fields : List (String × Datum)) → Option { c : Datum // sizeOf c < sizeOf fields }
  | [] => none
  | (n, c) :: rest =>
    if n = name then some ⟨c, by simp; omega⟩
    else (fieldIn? name rest).map fun ⟨c, h⟩ => ⟨c, by simp; omega⟩

def itemIn? (index : Nat) :
    (items : List Datum) → Option { c : Datum // sizeOf c < sizeOf items }
  | [] => none
  | c :: rest =>
    if index = 0 then some ⟨c, by simp; omega⟩
    else (itemIn? (index - 1) rest).map fun ⟨c, h⟩ => ⟨c, by simp; omega⟩

/-- The datum may be a record with the given fields; extra fields are allowed. -/
def fits (layout : List String) : Datum → Bool
  | .record _ => true
  | .list items => items.length = layout.length
  | _ => false

/-- A field of a record, or the item that stands in its place. -/
def part? (layout : List String) (name : String) : (d : Datum) → Option d.Part
  | .record fields => (fieldIn? name fields).map fun ⟨c, h⟩ => ⟨c, by simp; omega⟩
  | .list items =>
    if items.length = layout.length then
      (itemIn? (layout.idxOf name) items).map fun ⟨c, h⟩ => ⟨c, by simp; omega⟩
    else none
  | _ => none

def items? : (d : Datum) → Option (List d.Part)
  | .list items => some (items.attach.map fun ⟨c, h⟩ =>
      ⟨c, by have := List.sizeOf_lt_of_mem h; simp; omega⟩)
  | _ => none

def text? : Datum → Option String
  | .text s => some s
  | _ => none

/-- Any number, integers included, as a double. -/
def float? : Datum → Option Float
  | .integer n => some (Float.ofInt n)
  | .real x => some x
  | _ => none

/-- Sizes are integers below `2 ^ 64`. -/
def size? : Datum → Option Nat
  | .integer n => if 0 ≤ n ∧ n < 18446744073709551616 then some n.toNat else none
  | _ => none

def ofSize (n : Nat) : Datum :=
  .integer n

/-- Infinities and NaN have no written form. -/
def ofFloat (x : Float) : Datum :=
  if x.isFinite then .real x else .null

/-- A size that may be null or left out. -/
def optionalSize? : Option Datum → Option (Option Nat)
  | none | some .null => some none
  | some d => d.size?.map some

def ofOptionalSize : Option Nat → Datum
  | none => .null
  | some n => .ofSize n

/-- A name, given as text or as the only field of a record that holds null. -/
def name? : Datum → Option String
  | .text s => some s
  | .record [(s, .null)] => some s
  | _ => none

/-- A name among the fields of a node, where an empty record may stand for null. -/
def nodeName? : Datum → Option String
  | .record [(s, .record [])] => some s
  | d => d.name?

/-- The member of a list that has the given name. -/
def named? {α : Type} (all : List α) (nameOf : α → String) (name : String) : Option α :=
  all.find? fun a => nameOf a = name

def choice? {α : Type} (all : List α) (nameOf : α → String) (d : Datum) : Option α :=
  d.name? >>= named? all nameOf

def nodeChoice? {α : Type} (all : List α) (nameOf : α → String) (d : Datum) : Option α :=
  d.nodeName? >>= named? all nameOf

end Datum

end QuantityCalculus
