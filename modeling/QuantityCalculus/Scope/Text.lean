import QuantityCalculus.Scope.Basic
import QuantityCalculus.Text.Unprintable

/-!
Scopes as text: the names that they bind, in order and in double quotes, and their settings. In
quotes, quotes and backslashes are marked by a backslash, and a character without a picture is
written as its code point.
-/
namespace QuantityCalculus

namespace Text

/-- A code point in hexadecimal digits without leading zeros. -/
def codePoint (c : Char) : List Char :=
  ['\\', 'u', '\x7b'] ++ Nat.toDigits 16 c.toNat ++ ['\x7d']

def escape (c : Char) : List Char :=
  if c = '"' then ['\\', '"']
  else if c = '\\' then ['\\', '\\']
  else if c = '\t' then ['\\', 't']
  else if c = '\r' then ['\\', 'r']
  else if c = '\n' then ['\\', 'n']
  else if c = '\x00' then ['\\', '0']
  else if isUnprintable c then codePoint c
  else [c]

def quote (s : String) : String :=
  String.ofList ('"' :: (s.toList.flatMap escape ++ ['"']))

end Text

def quotedNames (names : List String) : String :=
  "[" ++ ", ".intercalate (names.map Text.quote) ++ "]"

def limitText : Option Nat → String
  | none => "None"
  | some n => "Some(" ++ toString n ++ ")"

def Scope.text (s : Scope) : String :=
  "Scope \x7b variables: " ++ quotedNames s.values.names ++
    ", functions: " ++ quotedNames s.functions.names ++
    ", options: ResolveOptions \x7b max_depth: " ++ limitText s.limit ++
    " \x7d, depth: " ++ toString s.depth ++ " \x7d"

end QuantityCalculus
