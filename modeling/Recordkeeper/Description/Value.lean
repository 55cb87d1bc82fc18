import Recordkeeper.Description.Reader
import Recordkeeper.Record

/-!
Contract: values and records as documents, without loss.

Owns: the form in which floats and bytes are objects with one field, so that every value has a
document of its own.

Does not own: the JSON form of values that backends store.
-/

set_option autoImplicit false

namespace Recordkeeper.Description

mutual

/-- The value of a document.  Whole numbers are integers of 64 bits; a float is given by its
decimal text and bytes by their hexadecimal text. -/
def value : Json → Option Value
  | .null => some .null
  | .bool b => some (.bool b)
  | .text s => some (.text s)
  | .number n => n.toInt64?.map .int
  | .array items => (values items).map .list
  | .object fields =>
    match fields with
    | [("float", .text x)] => (Binary64.ofText? x).map .float
    | [("bytes", .text hex)] => (Text.unhex? hex).map .bytes
    | _ => none
termination_by structural doc => doc

def values : List Json → Option (List Value)
  | [] => some []
  | doc :: rest => do
    let v ← value doc
    let vs ← values rest
    return v :: vs
termination_by structural docs => docs

end

def ofFloat (x : Binary64) : Json := .text x.toText

mutual

def ofValue : Value → Json
  | .null => .null
  | .bool b => .bool b
  | .int n => .int n.toInt
  | .float x => .single "float" (ofFloat x)
  | .text s => .text s
  | .bytes b => .single "bytes" (.text (Text.hex b))
  | .list items => .array (ofValues items)
termination_by structural v => v

def ofValues : List Value → List Json
  | [] => []
  | v :: rest => ofValue v :: ofValues rest
termination_by structural vs => vs

end

def record : Reader Record := fun doc => do
  let fields ← doc.fields?
  let entries ← fields.mapM fun f => do
    let v ← value f.2
    return (f.1, v)
  return .ofList entries

/-- The document of a record, with its fields in the order of their names. -/
def ofRecord (r : Record) : Json := .object (r.entries.map fun e => (e.1, ofValue e.2))

end Recordkeeper.Description
