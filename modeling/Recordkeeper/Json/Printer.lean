import Recordkeeper.Json.Basic
import Recordkeeper.Binary64.Text
import Recordkeeper.Text.Base64

/-!
Contract: the compact text of a JSON document.

Owns: escapes inside strings, the text of numbers, and the placement of separators.

Does not own: reading the text back, which is `Json.Parser`.
-/

set_option autoImplicit false

namespace Recordkeeper.Json

/-- A character inside a JSON string.  Only the quote, the backslash and controls below
U+0020 are escaped. -/
def escapeChar (c : Char) : List Char :=
  if c = '"' then ['\\', '"']
  else if c = '\\' then ['\\', '\\']
  else if c.toNat = 8 then ['\\', 'b']
  else if c.toNat = 9 then ['\\', 't']
  else if c.toNat = 10 then ['\\', 'n']
  else if c.toNat = 12 then ['\\', 'f']
  else if c.toNat = 13 then ['\\', 'r']
  else if c.toNat < 32 then
    ['\\', 'u', '0', '0', Text.hexDigit (c.toNat / 16), Text.hexDigit (c.toNat % 16)]
  else [c]

def renderText (s : String) : String :=
  "\"" ++ String.ofList (s.toList.flatMap escapeChar) ++ "\""

/-- Whole numbers in decimal; a number that is not finite has no JSON form and becomes null. -/
def renderNumber : Number → String
  | .int n => toString n
  | .float x => if x.isFinite then x.toJsonText else "null"

mutual

def render : Json → String
  | .null => "null"
  | .bool b => if b then "true" else "false"
  | .number n => renderNumber n
  | .text s => renderText s
  | .array items => "[" ++ renderItems items ++ "]"
  | .object fields => "\x7b" ++ renderFields fields ++ "\x7d"
termination_by structural x => x

def renderItems : List Json → String
  | [] => ""
  | [x] => render x
  | x :: y :: rest => render x ++ "," ++ renderItems (y :: rest)
termination_by structural x => x

def renderFields : List (String × Json) → String
  | [] => ""
  | [(name, v)] => renderText name ++ ":" ++ render v
  | (name, v) :: f :: rest =>
    renderText name ++ ":" ++ render v ++ "," ++ renderFields (f :: rest)
termination_by structural x => x

end

/-- The document with the fields of its outermost object in the order of their names. -/
def sortFields : Json → Json
  | .object fields => .object (fields.mergeSort fun a b => decide (a.1 ≤ b.1))
  | doc => doc

end Recordkeeper.Json
