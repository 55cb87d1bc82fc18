import Recordkeeper.Error
import Recordkeeper.Record

/-!
Contract: what a repository knows about its entities.

Owns:
- the fields with their columns, the primary key and how its values come about;
- the mapping between logical names and columns, in which unknown names map to themselves;
- the consistency of a schema and the acceptable ids;
- the statement that creates the table.

Does not own: how records are stored.
-/

set_option autoImplicit false

namespace Recordkeeper

inductive FieldKind where
  | bool
  | int
  | float
  | text
  | bytes
  /-- Lists and other structured values, text of JSON in a table. -/
  | json
  deriving DecidableEq, Repr

def FieldKind.columnType : FieldKind → String
  | .bool => "INTEGER"
  | .int => "INTEGER"
  | .float => "REAL"
  | .text => "TEXT"
  | .bytes => "BLOB"
  | .json => "TEXT"

inductive IdStrategy where
  /-- The caller gives it. -/
  | provided
  /-- The relational engine numbers its rows. -/
  | autoIncrement
  /-- A random text is generated when the caller gives none. -/
  | uuid
  deriving DecidableEq, Repr

structure FieldDef where
  /-- Logical name, seen by entities and queries. -/
  name : String
  /-- Name in the backend. -/
  column : String
  kind : FieldKind
  nullable : Bool := true
  unique : Bool := false
  deriving DecidableEq, Repr

structure Schema where
  /-- Table, collection or key namespace. -/
  name : String
  primaryKey : String
  idStrategy : IdStrategy := .provided
  fields : List FieldDef := []
  deriving DecidableEq, Repr

namespace Schema

def field? (s : Schema) (name : String) : Option FieldDef := s.fields.find? (·.name == name)

def columnFor (s : Schema) (name : String) : String :=
  match s.field? name with
  | some f => f.column
  | none => name

def fieldForColumn (s : Schema) (column : String) : String :=
  match s.fields.find? (·.column == column) with
  | some f => f.name
  | none => column

def keyColumn (s : Schema) : String := s.columnFor s.primaryKey

/-- The primary key under its own name or under the common name of ids. -/
def isPrimaryKey (s : Schema) (field : String) : Bool := field == s.primaryKey || field == "id"

def kindOf? (s : Schema) (name : String) : Option FieldKind := (s.field? name).map (·.kind)

/-- The first name that an earlier field has already. -/
def repeatedName? : List FieldDef → List String → Option String
  | [], _ => none
  | f :: rest, seen => if seen.contains f.name then some f.name else repeatedName? rest (f.name :: seen)

def validate (s : Schema) : Except Error Unit :=
  if s.name = "" then refuse .emptySchemaName
  else if (s.field? s.primaryKey).isNone then refuse (.undeclaredKey s.primaryKey s.name)
  else
    match repeatedName? s.fields [] with
    | some name => refuse (.duplicateField name)
    | none =>
      if s.idStrategy = .autoIncrement ∧ s.kindOf? s.primaryKey ≠ some .int then
        refuse .autoIncrementKind
      else .ok ()

def columnDefinition (s : Schema) (f : FieldDef) : String :=
  let constraints :=
    if f.name = s.primaryKey then
      " PRIMARY KEY" ++ (if s.idStrategy = .autoIncrement then " AUTOINCREMENT" else "")
    else (if f.nullable then "" else " NOT NULL") ++ (if f.unique then " UNIQUE" else "")
  "\"" ++ f.column ++ "\" " ++ f.kind.columnType ++ constraints

def createTable (s : Schema) : String :=
  "CREATE TABLE IF NOT EXISTS \"" ++ s.name ++ "\" ("
    ++ String.intercalate ", " (s.fields.map s.columnDefinition) ++ ")"

/-- Everything but null and lists can be an id. -/
def checkId (s : Schema) (id : Value) : Except Error Unit :=
  match id with
  | .null | .list _ => refuse (.invalidId s.name id.type)
  | _ => .ok ()

end Schema

end Recordkeeper
