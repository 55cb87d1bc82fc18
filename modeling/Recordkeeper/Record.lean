import Recordkeeper.NameMap
import Recordkeeper.Value

/-!
Contract: records, finite maps from field names to values.

Owns: renaming and restriction of fields, equality of records, and conversion to and from
JSON objects.

Does not own: what the fields of a record mean.
-/

set_option autoImplicit false

namespace Recordkeeper

abbrev Record := NameMap Value

namespace Record

/-- The value of a field, a missing one counting as null. -/
def valueAt (r : Record) (name : String) : Value := (r.get? name).getD .null

def restrict (r : Record) (keep : String → Bool) : Record := r.filter fun n _ => keep n

def rename (r : Record) (newName : String → String) : Record :=
  .ofList (r.entries.map fun f => (newName f.1, f.2))

def equalFields : List (String × Value) → List (String × Value) → Bool
  | [], [] => true
  | (m, v) :: fs, (n, w) :: gs => m == n && v.equal w && equalFields fs gs
  | _, _ => false

def equal (r s : Record) : Bool := equalFields r.entries s.entries

/-- The record of an object; other documents give the empty record. -/
def ofJson : Json → Record
  | .object fields => .ofList (fields.map fun f => (f.1, Value.ofJson f.2))
  | _ => .empty

def toJson (r : Record) : Json := .object (r.entries.map fun f => (f.1, f.2.toJson))

end Record

end Recordkeeper
