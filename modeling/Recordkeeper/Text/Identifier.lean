import Recordkeeper.Json.Basic

/-!
Contract: random identifiers inside texts.

Owns:
- the form of an identifier of version 4;
- replacing identifiers by their numbers in order of first appearance, and putting them back.

Does not own: making identifiers.
-/

set_option autoImplicit false

namespace Recordkeeper.Text.Identifier

def lowerHex (c : Char) : Bool := c.isDigit || ('a' ≤ c && c ≤ 'f')

def size : Nat := 36

/-- What may stand at a position: groups of hexadecimal digits with hyphens between them, the
version, and the variant. -/
def allowedAt (position : Nat) (c : Char) : Bool :=
  if [8, 13, 18, 23].contains position then c == '-'
  else if position = 14 then c == '4'
  else if position = 19 then ['8', '9', 'a', 'b'].contains c
  else lowerHex c

def isIdentifier (cs : List Char) : Bool :=
  cs.length == size && cs.zipIdx.all fun c => allowedAt c.2 c.1

def label : String := "uuid#"

/-- Replaces identifiers by their labels; `known` lists those seen before, in order.  The first
number bounds the characters read. -/
def numberChars : Nat → List String → List Char → List String × List Char
  | 0, known, _ => (known, [])
  | _, known, [] => (known, [])
  | fuel + 1, known, c :: rest =>
    let first := (c :: rest).take size
    if isIdentifier first then
      let id := String.ofList first
      let known := if known.contains id then known else known ++ [id]
      let (all, tail) := numberChars fuel known ((c :: rest).drop size)
      (all, (label ++ toString (known.idxOf id + 1)).toList ++ tail)
    else
      let (all, tail) := numberChars fuel known rest
      (all, c :: tail)

/-- The identifier a label stands for, with the characters the label takes. -/
def labelled? (known : List String) (cs : List Char) : Option (String × Nat) :=
  if label.toList.isPrefixOf cs then
    let digits := (cs.drop label.length).takeWhile Char.isDigit
    match (String.ofList digits).toNat? with
    | some (n + 1) => known[n]?.map fun id => (id, label.length + digits.length)
    | _ => none
  else none

def restoreChars (known : List String) : Nat → List Char → List Char
  | 0, _ => []
  | _, [] => []
  | fuel + 1, c :: rest =>
    match labelled? known (c :: rest) with
    | some (id, n) => id.toList ++ restoreChars known fuel ((c :: rest).drop n)
    | none => c :: restoreChars known fuel rest

def numberText (known : List String) (s : String) : List String × String :=
  let (known, cs) := numberChars (s.length + 1) known s.toList
  (known, String.ofList cs)

def restoreText (known : List String) (s : String) : String :=
  String.ofList (restoreChars known (s.length + 1) s.toList)

mutual

def numberAll (known : List String) : Json → List String × Json
  | .text s =>
    let (known, s) := numberText known s
    (known, .text s)
  | .array items =>
    let (known, items) := numberItems known items
    (known, .array items)
  | .object fields =>
    let (known, fields) := numberFields known fields
    (known, .object fields)
  | .null => (known, .null)
  | .bool b => (known, .bool b)
  | .number n => (known, .number n)
termination_by structural doc => doc

def numberItems (known : List String) : List Json → List String × List Json
  | [] => (known, [])
  | doc :: rest =>
    let (known, doc) := numberAll known doc
    let (known, rest) := numberItems known rest
    (known, doc :: rest)
termination_by structural docs => docs

def numberFields (known : List String) : List (String × Json) → List String × List (String × Json)
  | [] => (known, [])
  | (name, doc) :: rest =>
    let (known, doc) := numberAll known doc
    let (known, rest) := numberFields known rest
    (known, (name, doc) :: rest)
termination_by structural fields => fields

end

mutual

def restoreAll (known : List String) : Json → Json
  | .text s => .text (restoreText known s)
  | .array items => .array (restoreItems known items)
  | .object fields => .object (restoreFields known fields)
  | .null => .null
  | .bool b => .bool b
  | .number n => .number n
termination_by structural doc => doc

def restoreItems (known : List String) : List Json → List Json
  | [] => []
  | doc :: rest => restoreAll known doc :: restoreItems known rest
termination_by structural docs => docs

def restoreFields (known : List String) : List (String × Json) → List (String × Json)
  | [] => []
  | (name, doc) :: rest => (name, restoreAll known doc) :: restoreFields known rest
termination_by structural fields => fields

end

end Recordkeeper.Text.Identifier
