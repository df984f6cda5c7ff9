import QuantityCalculus.CompoundUnit.Basic

/-!
Reading compound units: terms joined by `.` for a product or `/` for a quotient, both binding
from left to right. A term is a symbol with an optional integer exponent, and a leading `1/`
starts with a quotient. The reader is an automaton that takes one character at a time.
-/
namespace QuantityCalculus

/-- What is missing where the text stops being a unit. -/
inductive Expectation where
  | symbol
  | separator
  | digits
  deriving DecidableEq, Repr

inductive UnitTextFault where
  | nonAscii
  | whitespace
  | expected (position : Nat) (what : Expectation)
  | exponentRange (position : Nat)
  deriving DecidableEq, Repr

def Expectation.text : Expectation → String
  | .symbol => "expected unit symbol"
  | .separator => "expected '.' or '/'"
  | .digits => "expected exponent digits"

namespace UnitTextFault

def message : UnitTextFault → String
  | .nonAscii => "unit expression must be ASCII"
  | .whitespace => "unit expression must not contain whitespace"
  | .expected position what => "invalid unit syntax at byte " ++ toString position ++ ": " ++ what.text
  | .exponentRange position => "exponent overflow at byte " ++ toString position

def position? : UnitTextFault → Option Nat
  | .nonAscii | .whitespace => none
  | .expected position _ | .exponentRange position => some position

end UnitTextFault

namespace CompoundUnit

def isSymbolCharacter (c : Char) : Bool :=
  c.isAlpha || c = '_' || c = '[' || c = ']' || c = '%' || c = '\''

/-- Space, tab, line feed, form feed and carriage return. -/
def isBlank (c : Char) : Bool :=
  c = ' ' || c = '\t' || c = '\n' || c = '\x0c' || c = '\r'

/-- The symbol of a term and the place where the term starts. -/
structure TermHead where
  start : Nat
  symbol : List Char
  deriving DecidableEq, Repr

/-- Where the reader stands inside a term. -/
inductive Phase where
  | beforeSymbol
  | inSymbol (head : TermHead)
  | afterSign (head : TermHead) (negative : Bool)
  | inDigits (head : TermHead) (negative : Bool) (first : Nat) (value : Int)
  deriving DecidableEq, Repr

/-- The reader after the terms so far; `divides` holds after a `/`. -/
structure Reader where
  position : Nat
  units : CompoundUnit
  divides : Bool
  phase : Phase
  deriving DecidableEq, Repr

namespace Reader

def start : Reader :=
  ⟨0, dimensionless, false, .beforeSymbol⟩

/-- The reader after a leading `1/`. -/
def afterUnity : Reader :=
  ⟨2, dimensionless, true, .beforeSymbol⟩

/-- The unit with the term at `head` multiplied or divided in. -/
def close (r : Reader) (head : TermHead) (n : Int) : Except UnitTextFault CompoundUnit :=
  match r.units.accumulate? (String.ofList head.symbol) (.ofInt (if r.divides then -n else n)) with
  | some units => .ok units
  | none => .error (.exponentRange head.start)

/-- A character that follows a whole term. -/
def separate (r : Reader) (head : TermHead) (n : Int) (c : Char) : Except UnitTextFault Reader := do
  let units ← r.close head n
  if c = '.' then return ⟨r.position + 1, units, false, .beforeSymbol⟩
  else if c = '/' then return ⟨r.position + 1, units, true, .beforeSymbol⟩
  else throw (.expected r.position .separator)

def digitOf (c : Char) : Int :=
  c.toNat - '0'.toNat

/-- One more digit at the end of `value`, read from the digits that start at `first`. -/
def digit (r : Reader) (head : TermHead) (negative : Bool) (first : Nat) (value : Int) (c : Char) :
    Except UnitTextFault Reader :=
  match inWord? (value * 10 + digitOf c) with
  | some value => .ok { r with position := r.position + 1, phase := .inDigits head negative first value }
  | none => .error (.exponentRange first)

def signed (negative : Bool) (value : Int) : Int :=
  if negative then -value else value

def step (r : Reader) (c : Char) : Except UnitTextFault Reader :=
  match r.phase with
  | .beforeSymbol =>
    if isSymbolCharacter c then
      .ok { r with position := r.position + 1, phase := .inSymbol ⟨r.position, [c]⟩ }
    else .error (.expected r.position .symbol)
  | .inSymbol head =>
    if isSymbolCharacter c then
      .ok { r with position := r.position + 1, phase := .inSymbol { head with symbol := head.symbol ++ [c] } }
    else if c = '-' ∨ c = '+' then
      .ok { r with position := r.position + 1, phase := .afterSign head (c = '-') }
    else if c.isDigit then r.digit head false r.position 0 c
    else r.separate head 1 c
  | .afterSign head negative =>
    if c.isDigit then r.digit head negative r.position 0 c
    else .error (.expected r.position .digits)
  | .inDigits head negative first value =>
    if c.isDigit then r.digit head negative first value c
    else r.separate head (signed negative value) c

def finish (r : Reader) : Except UnitTextFault CompoundUnit :=
  match r.phase with
  | .beforeSymbol => .error (.expected r.position .symbol)
  | .inSymbol head => r.close head 1
  | .afterSign _ _ => .error (.expected r.position .digits)
  | .inDigits head negative _ value => r.close head (signed negative value)

def run : Reader → List Char → Except UnitTextFault CompoundUnit
  | r, [] => r.finish
  | r, c :: rest => do (← r.step c).run rest

end Reader

def readCharacters : List Char → Except UnitTextFault CompoundUnit
  | [] => .ok dimensionless
  | ['1'] => .ok dimensionless
  | '1' :: '/' :: rest => Reader.afterUnity.run rest
  | characters => Reader.start.run characters

def read (text : String) : Except UnitTextFault CompoundUnit :=
  let characters := text.toList
  if characters.any fun c => 128 ≤ c.toNat then .error .nonAscii
  else if characters.any isBlank then .error .whitespace
  else readCharacters characters

end CompoundUnit

end QuantityCalculus
