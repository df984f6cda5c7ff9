import QuantityCalculus.Value.Basic

/-!
Units and values as text. A unit has its symbols in order, joined by points, each followed by its
exponent; an exponent of one is not written, and a fraction stands in brackets after a caret. A
value is a number or a matrix in nested brackets, with its unit after a space.
-/
namespace QuantityCalculus

def Exponent.suffix (e : Exponent) : List Char :=
  if e.isInteger then if e.isOne then [] else Decimal.integer e.numerator
  else '^' :: '(' :: (e.characters ++ [')'])

namespace CompoundUnit

def entryCharacters (entry : String × Exponent) : List Char :=
  entry.1.toList ++ entry.2.suffix

def joined : List (String × Exponent) → List Char
  | [] => []
  | [entry] => entryCharacters entry
  | entry :: rest => entryCharacters entry ++ '.' :: joined rest

def characters (u : CompoundUnit) : List Char :=
  if u.isDimensionless then ['1'] else joined u.entries

def text (u : CompoundUnit) : String :=
  String.ofList u.characters

end CompoundUnit

def bracketed (items : List String) : String :=
  "[" ++ ", ".intercalate items ++ "]"

def Matrix.text (m : Matrix) : String :=
  bracketed (m.cells.map fun row => bracketed (row.map Decimal.number))

def Quantity.text : Quantity → String
  | .number x => Decimal.number x
  | .matrix m => m.text

def Value.text : Value → String
  | .number x => Decimal.number x
  | .matrix m => m.text
  | .measured units quantity => quantity.text ++ " " ++ units.text

def Kind.text : Kind → String
  | .number => "number"
  | .matrix => "matrix"
  | .unit => "unit"

end QuantityCalculus
