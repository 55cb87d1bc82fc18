import Recordkeeper.Entity.Basic
import Recordkeeper.Json.Printer
import Recordkeeper.Text.Classes

/-!
Contract: entity types with a fixed list of typed fields.

Owns: reading a document as an entity of such a type, and the wording of what is wrong.

Does not own: entity types of other forms.

An unknown field is dropped.  A field of the wrong type is reported before a missing one.
-/

set_option autoImplicit false

namespace Recordkeeper

inductive FieldShape where
  | text
  | int
  | bool
  | float
  | list (item : FieldShape)
  /-- Null or missing, or a value. -/
  | optional (item : FieldShape)

def Json.describe : Json → String
  | .null => "null"
  | .bool b => "boolean " ++ tick ++ (if b then "true" else "false") ++ tick
  | .number (.int n) => "integer " ++ tick ++ toString n ++ tick
  | .number (.float x) => "floating point " ++ tick ++ x.toJsonText ++ tick
  | .text s => "string " ++ Text.quoted s
  | .array _ => "sequence"
  | .object _ => "map"
where
  /-- The mark around values. -/
  tick : String := String.singleton (Char.ofNat 0x60)

namespace FieldShape

def expected : FieldShape → String
  | .text => "a string"
  | .int => "i64"
  | .bool => "a boolean"
  | .float => "f64"
  | .list _ => "a sequence"
  | .optional item => item.expected

def wrongType (shape : FieldShape) (doc : Json) : Except String Json :=
  .error ("invalid type: " ++ doc.describe ++ ", expected " ++ shape.expected)

/-- Reads a value.  A whole number is read as binary64 where the field wants that. -/
def read : FieldShape → Json → Except String Json
  | .text, .text s => .ok (.text s)
  | .int, .number (.int n) =>
    if (Number.toInt64? (.int n)).isSome then .ok (.int n)
    else .error ("invalid value: " ++ (Json.int n).describe ++ ", expected " ++ FieldShape.int.expected)
  | .bool, .bool b => .ok (.bool b)
  | .float, .number n => .ok (.number (.float n.toBinary64))
  | .list item, .array items => (items.mapM item.read).map .array
  | .optional _, .null => .ok .null
  | .optional item, doc => item.read doc
  | shape, doc => shape.wrongType doc

end FieldShape

structure EntityShape where
  fields : List (String × FieldShape)

namespace EntityShape

def readFields (shape : EntityShape) : Fields → Except String Fields
  | [] => .ok []
  | (name, doc) :: rest =>
    match shape.fields.lookup name with
    | none => shape.readFields rest
    | some field => do
      let value ← field.read doc
      let others ← shape.readFields rest
      return (name, value) :: others

/-- Puts the fields read into the order of the type; a missing optional field is null. -/
def arrange (found : Fields) : List (String × FieldShape) → Except String Fields
  | [] => .ok []
  | (name, field) :: rest =>
    match found.get? name, field with
    | some value, _ => do return (name, value) :: (← arrange found rest)
    | none, .optional _ => do return (name, .null) :: (← arrange found rest)
    | none, _ => .error ("missing field " ++ Json.describe.tick ++ name ++ Json.describe.tick)

def read (shape : EntityShape) (doc : Json) : Except String Json :=
  match doc with
  | .object fields => do
    let found ← shape.readFields fields
    return .object (← arrange found shape.fields)
  | other => .error ("invalid type: " ++ other.describe ++ ", expected an object")

/-- Entities of the type, kept as documents with exactly its fields. -/
def entityType (shape : EntityShape) : EntityType Json := ⟨id, shape.read⟩

end EntityShape

end Recordkeeper
