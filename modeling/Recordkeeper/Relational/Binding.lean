import Recordkeeper.Engine.Connection
import Recordkeeper.Json.Parser
import Recordkeeper.Schema

/-!
Contract: values on their way into cells and back.

Owns:
- the cell a value is bound as;
- the value of a cell, which depends on the kind of its field;
- the records of a statement's rows.

Does not own: statements.
-/

set_option autoImplicit false

namespace Recordkeeper.Relational

open Sql

/-- The cell of a value.  Booleans become numbers and lists their JSON text; a float that is no
number is bound as null. -/
def bind : Value → Cell
  | .bool b => .ofBool b
  | .int n => .integer n
  | .float x => .ofReal x
  | .text s => .text s
  | .bytes b => .blob b
  | .list items => .text (Value.list items).toJson.render
  | .null => .null

/-- The value of a text in a field of structured values: that of the document it is, or the text
itself. -/
def structured (s : String) : Value :=
  match Json.parse s with
  | .ok doc => .ofJson doc
  | .error _ => .text s

/-- The value of a cell in a field of a kind, or without a kind by the cell alone. -/
def decode (kind : Option FieldKind) : Cell → Value
  | .null => .null
  | .integer n =>
    match kind with
    | some .bool => .bool (n != 0)
    | some .float => .float (.ofInt n.toInt)
    | _ => .int n
  | .real x => .float x
  | .text s => if kind = some .json then structured s else .text s
  | .blob b => .bytes b

def decodeColumn (schema : Option Schema) (column : String) (cell : Cell) : String × Value :=
  match schema with
  | some s =>
    let name := s.fieldForColumn column
    (name, decode (s.kindOf? name) cell)
  | none => (column, decode none cell)

/-- The record of a row.  Of several columns with one name the last counts. -/
def decodeRow (schema : Option Schema) (columns : List String) (row : Engine.Row) : Record :=
  NameMap.ofList (List.zipWith (decodeColumn schema) columns row)

def decodeRows (schema : Option Schema) (answer : Engine.Answer) : List Record :=
  answer.rows.map (decodeRow schema answer.columns)

end Recordkeeper.Relational
