import Recordkeeper.Json.Printer
import Recordkeeper.Text.Utf8

/-!
Contract: the closed set of values a field can hold, the same for every backend.

Owns:
- equality, with and without regard to the two forms of numbers;
- the text form of a value and the comparison that falls back on it;
- conversion to and from JSON, which loses the difference between bytes and text.

Does not own: how a backend stores a value.
-/

set_option autoImplicit false

namespace Recordkeeper

inductive Value where
  | bool (b : Bool)
  | int (n : Int64)
  | float (x : Binary64)
  | text (s : String)
  | bytes (b : Bytes)
  | list (items : List Value)
  | null
  deriving Inhabited

inductive ValueType where
  | bool
  | int
  | float
  | string
  | bytes
  | list
  | null
  deriving DecidableEq, Repr

def ValueType.name : ValueType → String
  | .bool => "bool"
  | .int => "int"
  | .float => "float"
  | .string => "string"
  | .bytes => "bytes"
  | .list => "list"
  | .null => "null"

namespace Value

def type : Value → ValueType
  | .bool _ => .bool
  | .int _ => .int
  | .float _ => .float
  | .text _ => .string
  | .bytes _ => .bytes
  | .list _ => .list
  | .null => .null

def isNull : Value → Bool
  | .null => true
  | _ => false

def isScalar : Value → Bool
  | .list _ => false
  | _ => true

def text? : Value → Option String
  | .text s => some s
  | _ => none

def int? : Value → Option Int64
  | .int n => some n
  | _ => none

def list? : Value → Option (List Value)
  | .list items => some items
  | _ => none

/-- Numeric view used when an integer meets a float; large integers are rounded. -/
def number? : Value → Option Binary64
  | .int n => some (.ofInt n.toInt)
  | .float x => some x
  | _ => none

mutual

/-- Equality within one variant; floats by number, so a NaN differs from itself. -/
def equal : Value → Value → Bool
  | .bool a, .bool b => a == b
  | .int m, .int n => m == n
  | .float x, .float y => x.numEq y
  | .text s, .text t => s == t
  | .bytes a, .bytes b => a == b
  | .list xs, .list ys => equalItems xs ys
  | .null, .null => true
  | _, _ => false
termination_by structural x => x

def equalItems : List Value → List Value → Bool
  | [], [] => true
  | x :: xs, y :: ys => equal x y && equalItems xs ys
  | _, _ => false
termination_by structural x => x

end

instance : BEq Value := ⟨equal⟩

def looselyEqual (a b : Value) : Bool :=
  match a.number?, b.number? with
  | some x, some y => x.numEq y
  | _, _ => a.equal b

mutual

/-- Text form of a value: booleans as digits, lists in brackets, null empty. -/
def coerced : Value → String
  | .bool b => if b then "1" else "0"
  | .int n => toString n.toInt
  | .float x => x.toText
  | .text s => s
  | .bytes b => Text.Utf8.decodeLossy b
  | .list items => "[" ++ coercedItems items ++ "]"
  | .null => ""
termination_by structural x => x

def coercedItems : List Value → String
  | [] => ""
  | [x] => coerced x
  | x :: y :: rest => coerced x ++ "," ++ coercedItems (y :: rest)
termination_by structural x => x

end

def compareBytes : Bytes → Bytes → Ordering
  | [], [] => .eq
  | [], _ :: _ => .lt
  | _ :: _, [] => .gt
  | a :: as, b :: bs => (compare a.toNat b.toNat).then (compareBytes as bs)

/-- Order of two values: numbers by size, bytes and booleans among themselves, everything
else by text form.  Null compares with nothing. -/
def compare? (a b : Value) : Option Ordering :=
  if a.isNull || b.isNull then none
  else
    match a.number?, b.number? with
    | some x, some y => x.compare? y
    | _, _ =>
      match a, b with
      | .bytes x, .bytes y => some (compareBytes x y)
      | .bool x, .bool y => some (compare x y)
      | _, _ => some (compare a.coerced b.coerced)

def display : Value → String
  | .text s => "'" ++ s ++ "'"
  | .null => "NULL"
  | .bytes b => "<" ++ toString b.length ++ " bytes>"
  | v => v.coerced

mutual

/-- JSON form: bytes become base 64 text, a float that is not finite becomes null. -/
def toJson : Value → Json
  | .bool b => .bool b
  | .int n => .number (.int n.toInt)
  | .float x => if x.isFinite then .number (.float x) else .null
  | .text s => .text s
  | .bytes b => .text (Text.base64 b)
  | .list items => .array (toJsonItems items)
  | .null => .null
termination_by structural x => x

def toJsonItems : List Value → List Json
  | [] => []
  | x :: rest => toJson x :: toJsonItems rest
termination_by structural x => x

end

mutual

/-- The value of a document.  Whole numbers beyond 64 bits become floats, objects become
their JSON text. -/
def ofJson : Json → Value
  | .null => .null
  | .bool b => .bool b
  | .number n =>
    match n.toInt64? with
    | some i => .int i
    | none => .float n.toBinary64
  | .text s => .text s
  | .array items => .list (ofJsonItems items)
  | .object fields => .text (Json.render (.object fields))
termination_by structural x => x

def ofJsonItems : List Json → List Value
  | [] => []
  | x :: rest => ofJson x :: ofJsonItems rest
termination_by structural x => x

end

end Value

end Recordkeeper
