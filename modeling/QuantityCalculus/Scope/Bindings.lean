/-!
Names bound to things. The newest binding of a name hides the older ones.
-/
namespace QuantityCalculus

inductive Bindings (α : Type) where
  | empty
  | bind (name : String) (value : α) (rest : Bindings α)
  deriving Repr

namespace Bindings

def find? {α : Type} : Bindings α → String → Option α
  | .empty, _ => none
  | .bind bound value rest, name => if bound = name then some value else rest.find? name

def insert {α : Type} (b : Bindings α) (name : String) (value : α) : Bindings α :=
  .bind name value b

/-- The pairs are bound in order, so that the last of two equal names counts. -/
def insertAll {α : Type} (b : Bindings α) : List (String × α) → Bindings α
  | [] => b
  | (name, value) :: rest => (b.insert name value).insertAll rest

def ofList {α : Type} (pairs : List (String × α)) : Bindings α :=
  Bindings.empty.insertAll pairs

/-- A name is put in its place in an ordered list, unless it is there. -/
def insertName (name : String) : List String → List String
  | [] => [name]
  | other :: rest =>
    if name < other then name :: other :: rest
    else if name = other then other :: rest
    else other :: insertName name rest

/-- The bound names in order, each once. -/
def names {α : Type} : Bindings α → List String
  | .empty => []
  | .bind name _ rest => insertName name rest.names

@[simp] theorem find?_empty {α : Type} (name : String) : (empty : Bindings α).find? name = none :=
  rfl

@[simp] theorem find?_insert {α : Type} (b : Bindings α) (bound name : String) (value : α) :
    (b.insert bound value).find? name = if bound = name then some value else b.find? name :=
  rfl

@[simp] theorem insertAll_nil {α : Type} (b : Bindings α) : b.insertAll [] = b :=
  rfl

@[simp] theorem insertAll_cons {α : Type} (b : Bindings α) (name : String) (value : α)
    (rest : List (String × α)) :
    b.insertAll ((name, value) :: rest) = (b.insert name value).insertAll rest :=
  rfl

end Bindings

end QuantityCalculus
