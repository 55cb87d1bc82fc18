import Recordkeeper.Repository
import Recordkeeper.Schema

/-!
Contract: entities on their way to records and back.

Owns:
- entity types, given by their JSON forms;
- the record of an entity and the entity of a record;
- the id a new record is stored under, and writing it back;
- the fields a partial update may set.

Does not own: columns and keys of a backend.
-/

set_option autoImplicit false

namespace Recordkeeper

/-- A type of entities by its JSON form.  Reading may report what is wrong with a document. -/
structure EntityType (E : Type) where
  toJson : E → Json
  ofJson : Json → Except String E

def EntityType.anyDocument : EntityType Json := ⟨id, .ok⟩

namespace Schema

variable {E σ : Type}

def toRecord (s : Schema) (type : EntityType E) (entity : E) : Except Error Record :=
  match type.toJson entity with
  | .object fields => .ok (Record.ofJson (.object fields))
  | _ => refuse (.notAnObject s.name)

def ofRecord (_ : Schema) (type : EntityType E) (r : Record) : Except Error E :=
  match type.ofJson r.toJson with
  | .ok entity => .ok entity
  | .error problem => refuse (.jsonData problem)

/-- The id of a record; a null is no id. -/
def idOf? (s : Schema) (r : Record) : Option Value :=
  (r.get? s.primaryKey).filter fun v => !v.isNull

/-- The id a new record is stored under, with the record that carries it.  The engine numbers
records of an auto-increment schema that bring no id. -/
def prepareId (s : Schema) (env : Environment σ) (r : Record) :
    Action σ (Option Value × Record) :=
  match s.idOf? r with
  | some id => do
    Action.ofExcept (s.checkId id)
    return (some id, r)
  | none =>
    match s.idStrategy with
    | .provided => Action.refuse (.idRequired s.name s.primaryKey)
    | .autoIncrement => return (none, r.erase s.primaryKey)
    | .uuid => do
      let id := Value.text (← Action.ofState env.freshId)
      return (some id, r.insert s.primaryKey id)

def assignId (s : Schema) (type : EntityType E) (entity : E) (id : Value) : Except Error E := do
  let r ← s.toRecord type entity
  s.ofRecord type (r.insert s.primaryKey id)

/-- The first fault of the fields of a partial update: the primary key and unknown fields
cannot be set. -/
def checkFields (s : Schema) : List String → Except Error Unit
  | [] => .ok ()
  | name :: rest =>
    if s.isPrimaryKey name then refuse (.partialKey name)
    else if (s.field? name).isNone then refuse (.unknownField name s.name)
    else s.checkFields rest

/-- A partial update sets at least one field, and only declared ones. -/
def checkPartial (s : Schema) (fields : Record) : Except Error Unit :=
  if fields.isEmpty then refuse .emptyPartial else s.checkFields fields.names

def identified (s : Schema) (type : EntityType E) (entity : E) : Except Error (Value × Record) := do
  let r ← s.toRecord type entity
  match s.idOf? r with
  | some id => return (id, r)
  | none => refuse .updateWithoutId

end Schema

/-- Inserts entities one by one and collects the failures; `create` answers an entity after
its insertion. -/
def insertEach {σ E : Type} (create : E → Action σ E) :
    Nat → List E → StateM σ (BatchOutcome × List E)
  | _, [] => pure (⟨0, []⟩, [])
  | position, entity :: rest => do
    match ← create entity with
    | .ok entity =>
      let (outcome, entities) ← insertEach create (position + 1) rest
      return (⟨outcome.inserted + 1, outcome.failures⟩, entity :: entities)
    | .error e =>
      let (outcome, entities) ← insertEach create (position + 1) rest
      return (⟨outcome.inserted, (position, e) :: outcome.failures⟩, entity :: entities)

end Recordkeeper
