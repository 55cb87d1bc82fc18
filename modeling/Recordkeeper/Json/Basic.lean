import Recordkeeper.Binary64.Basic

/-!
Contract: JSON documents as values.

Owns:
- numbers that are either whole or binary64, and never equal across the two forms;
- documents, whose objects keep their fields in order;
- reading and changing the fields of an object;
- equality of documents, which ignores the order of fields.

Does not own: JSON text (`Json.Parser`, `Json.Printer`) and the order used for sorting
documents.
-/

set_option autoImplicit false

namespace Recordkeeper

inductive Number where
  | int (n : Int)
  | float (x : Binary64)
  deriving DecidableEq, Inhabited, Repr

namespace Number

/-- Least and greatest whole numbers of 64 bits with sign. -/
def leastInt : Int := -0x8000000000000000
def greatestInt : Int := 0x7FFFFFFFFFFFFFFF

def toBinary64 : Number → Binary64
  | .int n => .ofInt n
  | .float x => x

/-- The number as a 64-bit integer; a number in binary64 form is none, even a whole one. -/
def toInt64? : Number → Option Int64
  | .int n => if leastInt ≤ n ∧ n ≤ greatestInt then some (Int64.ofInt n) else none
  | .float _ => none

def toNat? : Number → Option Nat
  | .int n => if 0 ≤ n ∧ n ≤ 0xFFFFFFFFFFFFFFFF then some n.toNat else none
  | .float _ => none

def equal : Number → Number → Bool
  | .int m, .int n => m == n
  | .float x, .float y => x.numEq y
  | _, _ => false

end Number

inductive Json where
  | null
  | bool (b : Bool)
  | number (n : Number)
  | text (s : String)
  | array (items : List Json)
  | object (fields : List (String × Json))
  deriving Inhabited, Repr

/-- The fields of an object in order, each name at most once. -/
abbrev Fields := List (String × Json)

namespace Fields

def get? (fields : Fields) (name : String) : Option Json := fields.lookup name

def has (fields : Fields) (name : String) : Bool := fields.any (·.1 == name)

/-- Sets a field: a known name keeps its position, a new one goes to the end. -/
def insert : Fields → String → Json → Fields
  | [], name, value => [(name, value)]
  | (n, v) :: rest, name, value =>
    if n = name then (n, value) :: rest else (n, v) :: insert rest name value

/-- The last of the fields takes the place of the removed one. -/
def remove (fields : Fields) (name : String) : Fields :=
  match fields.span (·.1 != name) with
  | (_, []) => fields
  | (before, _ :: after) =>
    match after.getLast? with
    | none => before
    | some last => before ++ last :: after.dropLast

end Fields

namespace Json

def int (n : Int) : Json := .number (.int n)

def emptyObject : Json := .object []

def single (name : String) (value : Json) : Json := .object [(name, value)]

def isNull : Json → Bool
  | .null => true
  | _ => false

def fields? : Json → Option Fields
  | .object fields => some fields
  | _ => none

def items? : Json → Option (List Json)
  | .array items => some items
  | _ => none

def text? : Json → Option String
  | .text s => some s
  | _ => none

def number? : Json → Option Number
  | .number n => some n
  | _ => none

/-- A field of an object; documents that are no objects have none. -/
def field? (doc : Json) (name : String) : Option Json := doc.fields?.bind (·.get? name)

mutual

/-- Equality of documents: fields in any order, whole numbers apart from binary64 ones. -/
def equal : Json → Json → Bool
  | .null, .null => true
  | .bool a, .bool b => a == b
  | .number m, .number n => m.equal n
  | .text s, .text t => s == t
  | .array xs, .array ys => equalItems xs ys
  | .object fs, .object gs => fs.length == gs.length && equalFields fs gs
  | _, _ => false
termination_by structural x => x

def equalItems : List Json → List Json → Bool
  | [], [] => true
  | x :: xs, y :: ys => equal x y && equalItems xs ys
  | _, _ => false
termination_by structural x => x

/-- Every field of the first list is found in the second with an equal value. -/
def equalFields : List (String × Json) → List (String × Json) → Bool
  | [], _ => true
  | (name, v) :: rest, gs =>
    (match gs.lookup name with
      | some w => equal v w
      | none => false) && equalFields rest gs
termination_by structural x => x

end

instance : BEq Json := ⟨equal⟩

end Json

end Recordkeeper
